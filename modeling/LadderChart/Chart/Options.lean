import LadderChart.Ink.Color
import LadderChart.Keyed
import LadderChart.Plot.Projection
import LadderChart.Time.Zone

/-!
What a chart is asked to be: size, title, scales, series, crosshair, time zone, fills by class
name; and the check of them, `validate`. Sizes are in page pixels; the canvas is larger by the pixel
ratio. A range rule may be any function of data and window, and two rules are not told apart.
-/

namespace LadderChart

/-- A range of an axis worked out from the data in a window. -/
abbrev RangeRule (α : Type) := Dataset α → Window → Option (α × α)

structure ScaleOptions (α : Type) where
  auto : Bool
  distribution : Distribution
  time : Bool
  rule : Option (RangeRule α)

namespace ScaleOptions
variable {α : Type}

def automatic (d : Distribution) : ScaleOptions α := ⟨true, d, false, none⟩

def ruled (d : Distribution) (rule : RangeRule α) : ScaleOptions α := ⟨false, d, false, some rule⟩

/-- Rules are compared by their presence only. -/
def agrees (s t : ScaleOptions α) : Bool :=
  s.auto == t.auto && s.distribution == t.distribution && s.time == t.time
    && s.rule.isSome == t.rule.isSome

end ScaleOptions

/-- A data column bound to a scale. -/
structure SeriesSpec where
  label : String
  scale : String
  deriving DecidableEq

structure CrosshairOptions (α : Type) where
  x : Bool
  y : Bool
  stroke : Color α
  deriving DecidableEq

def CrosshairOptions.standard {α : Type} [Scalar α] : CrosshairOptions α :=
  ⟨true, true, ⟨0.3, 0.3, 0.3, 0.8⟩⟩

def Axis.key : Axis → String
  | .x => "x"
  | .y => "y"

structure Options (α : Type) where
  width : UInt32
  height : UInt32
  title : String
  pixelRatio : α
  insets : Insets α
  scales : Keyed (ScaleOptions α)
  series : List SeriesSpec
  crosshair : CrosshairOptions α
  zone : Zone
  fills : Keyed (Color α)

namespace Options
variable {α : Type} [Scalar α]

/-- The rule of the ladder axis: the extent of the rungs in the window. -/
def ladderRule : RangeRule α := fun data w => Scale.ladderRange data.ladders w

def ladder (width height : UInt32) (title : String) : Options α where
  width := width
  height := height
  title := title
  pixelRatio := 1.0
  insets := .standard
  scales := .ofList
    [(Axis.x.key, { ScaleOptions.automatic .linear with time := true }),
     (Axis.y.key, .ruled .linear ladderRule)]
  series := [⟨"time", Axis.x.key⟩, ⟨"latency", Axis.y.key⟩, ⟨"count", Axis.y.key⟩]
  crosshair := .standard
  zone := .utc
  fills := .empty

def standard : Options α := ladder 1440 600 "Latency heatmap ladder"

def setScale (o : Options α) (key : String) (s : ScaleOptions α) : Options α :=
  { o with scales := o.scales.insert key s }

def setSpacing (o : Options α) (d : Distribution) : Options α :=
  { o with scales := o.scales.modify Axis.x.key fun s => { s with distribution := d } }

def setFill (o : Options α) (className : String) (fill : Color α) : Options α :=
  { o with fills := o.fills.insert className fill }

/-- A size in device pixels, or zero if it is not between one and the largest word of 32 bits. -/
def devicePixels (size : UInt32) (ratio : α) : UInt32 :=
  let scaled : α := Box.ofWord size * ratio
  if Scalar.isFinite scaled then
    let n := Scalar.nearest scaled
    if 1 ≤ n ∧ n ≤ 4294967295 then UInt32.ofNat n.toNat else 0
  else 0

def viewport (o : Options α) : Viewport :=
  ⟨devicePixels o.width o.pixelRatio, devicePixels o.height o.pixelRatio⟩

def checkScale (o : Options α) (axis : Axis) : Check :=
  match o.scales.get? axis.key with
  | none => .error (.data (.scaleMissing axis.key))
  | some s => refuseIf (!s.auto && s.rule.isNone) (.scaleUnresolved axis.key)

def checkSeries (o : Options α) (s : SeriesSpec) : Check :=
  refuseIf (!o.scales.contains s.scale) (.seriesScale s.label s.scale)

def checkFill (entry : String × Color α) : Check :=
  match entry.2.badChannel? with
  | some channel => .error (.data (.overlayStyle entry.1 channel))
  | none => .ok ()

def check (o : Options α) : Check := do
  if o.width = 0 ∨ o.height = 0 then throw (.viewport o.width o.height)
  refuseIf (!Scalar.isFinite o.pixelRatio || decide (o.pixelRatio ≤ 0.0)) .pixelRatio
  o.insets.check
  o.zone.check
  o.crosshair.stroke.check
  o.checkScale .x
  o.checkScale .y
  checkAll o.checkSeries o.series
  checkAll checkFill o.fills.entries

/-- Whether two options compare equal field by field. -/
def agrees (o p : Options α) : Bool :=
  o.width == p.width && o.height == p.height && o.title == p.title
    && o.pixelRatio == p.pixelRatio && o.insets.agrees p.insets
    && o.scales.agrees ScaleOptions.agrees p.scales && decide (o.series = p.series)
    && o.crosshair.x == p.crosshair.x && o.crosshair.y == p.crosshair.y
    && o.crosshair.stroke.agrees p.crosshair.stroke && o.zone.agrees p.zone
    && o.fills.agrees Color.agrees p.fills

end Options
end LadderChart
