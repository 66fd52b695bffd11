import LadderChart.Chart.Options
import LadderChart.Json.Reader
import LadderChart.Json.Writer

/-!
Options as JSON text: `to_json_pretty` and `from_json_str`. Range rules are not written; the one
rule that a text can ask for is that of the ladder axis, which a ladder axis without automatic range
gets when it is read. Where a refused text is malformed, and how, is not told.
-/

namespace LadderChart

def Color.toJson (c : Color Float) : Json :=
  .record [("red", .double c.red), ("green", .double c.green), ("blue", .double c.blue),
    ("alpha", .double c.alpha)]

def Color.ofJson? (j : Json) : Option (Color Float) := do
  let f ← j.fields? ["red", "green", "blue", "alpha"]
  let red ← f.required "red" Json.double?
  let green ← f.required "green" Json.double?
  let blue ← f.required "blue" Json.double?
  let alpha ← f.required "alpha" Json.double?
  return ⟨red, green, blue, alpha⟩

def Insets.toJson (i : Insets Float) : Json :=
  .record [("left", .double i.left), ("right", .double i.right), ("top", .double i.top),
    ("bottom", .double i.bottom)]

def Insets.ofJson? (j : Json) : Option (Insets Float) := do
  let f ← j.fields? ["left", "right", "top", "bottom"]
  let left ← f.required "left" Json.double?
  let right ← f.required "right" Json.double?
  let top ← f.required "top" Json.double?
  let bottom ← f.required "bottom" Json.double?
  return ⟨left, right, top, bottom⟩

def Distribution.name : Distribution → String
  | .ordinal => "Ordinal"
  | .linear => "Linear"

def Distribution.ofName? : String → Option Distribution
  | "Ordinal" => some .ordinal
  | "Linear" => some .linear
  | _ => none

def Distribution.toJson (d : Distribution) : Json := .string d.name

def Distribution.ofJson? (j : Json) : Option Distribution := j.plainAlternative?.bind ofName?

def Zone.toJson : Zone → Json
  | .utc => .string "Utc"
  | .fixed minutes =>
      .record [("FixedOffsetMinutes", .record [("minutes", .number (.ofInt minutes.toInt))])]
  | .place p => .record [("Named", .string p.name)]

def Zone.minutes? (j : Json) : Option Int16 := do
  let f ← j.fields? ["minutes"]
  let minutes ← f.required "minutes" (Json.integerIn? (-32768) 32767)
  return Int16.ofInt minutes

def Zone.ofJson? [Atlas] (j : Json) : Option Zone :=
  match j.alternative? with
  | some ("Utc", .null) => some .utc
  | some ("FixedOffsetMinutes", content) => (minutes? content).map .fixed
  | some ("Named", content) => (content.string?.bind Atlas.place?).map .place
  | _ => none

def ScaleOptions.toJson (s : ScaleOptions Float) : Json :=
  .record [("auto", .bool s.auto), ("distribution", s.distribution.toJson), ("time", .bool s.time)]

def ScaleOptions.ofJson? (j : Json) : Option (ScaleOptions Float) := do
  let f ← j.fields? ["auto", "distribution", "time"]
  let auto ← f.required "auto" Json.bool?
  let distribution ← f.withDefault "distribution" .linear Distribution.ofJson?
  let time ← f.withDefault "time" false Json.bool?
  return ⟨auto, distribution, time, none⟩

def SeriesSpec.toJson (s : SeriesSpec) : Json :=
  .record [("label", .string s.label), ("scale", .string s.scale)]

def SeriesSpec.ofJson? (j : Json) : Option SeriesSpec := do
  let f ← j.fields? ["label", "scale"]
  let label ← f.required "label" Json.string?
  let scale ← f.required "scale" Json.string?
  return ⟨label, scale⟩

def CrosshairOptions.toJson (c : CrosshairOptions Float) : Json :=
  .record [("x", .bool c.x), ("y", .bool c.y), ("stroke", c.stroke.toJson)]

def CrosshairOptions.ofJson? (j : Json) : Option (CrosshairOptions Float) := do
  let f ← j.fields? ["x", "y", "stroke"]
  let x ← f.required "x" Json.bool?
  let y ← f.required "y" Json.bool?
  let stroke ← f.required "stroke" Color.ofJson?
  return ⟨x, y, stroke⟩

def Keyed.toJson {β : Type} (write : β → Json) (m : Keyed β) : Json :=
  .record (m.entries.map fun entry => (entry.1, write entry.2))

def Keyed.ofJson? {β : Type} (read : Json → Option β) (j : Json) : Option (Keyed β) := do
  let entries ← j.entries?
  let values ← entries.mapM fun entry => (read entry.2).map fun value => (entry.1, value)
  return .ofList values

def Json.word32? (j : Json) : Option UInt32 := (j.natUpTo? 4294967295).map UInt32.ofNat

namespace Options

def fieldNames : List String :=
  ["width", "height", "title", "pixel_ratio", "insets", "scales", "series", "cursor", "time_zone",
    "overlay_styles"]

def toJson (o : Options Float) : Json :=
  .record [("width", .nat o.width.toNat), ("height", .nat o.height.toNat),
    ("title", .string o.title), ("pixel_ratio", .double o.pixelRatio),
    ("insets", o.insets.toJson), ("scales", o.scales.toJson ScaleOptions.toJson),
    ("series", .list (o.series.map SeriesSpec.toJson)), ("cursor", o.crosshair.toJson),
    ("time_zone", o.zone.toJson), ("overlay_styles", o.fills.toJson Color.toJson)]

def ofJson? [Atlas] (j : Json) : Option (Options Float) := do
  let f ← j.fields? fieldNames
  let width ← f.required "width" Json.word32?
  let height ← f.required "height" Json.word32?
  let title ← f.withDefault "title" "" Json.string?
  let pixelRatio ← f.withDefault "pixel_ratio" 1.0 Json.double?
  let insets ← f.withDefault "insets" .standard Insets.ofJson?
  let scales ← f.required "scales" (Keyed.ofJson? ScaleOptions.ofJson?)
  let series ← f.withDefault "series" [] (Json.list? SeriesSpec.ofJson?)
  let crosshair ← f.withDefault "cursor" .standard CrosshairOptions.ofJson?
  let zone ← f.withDefault "time_zone" .utc Zone.ofJson?
  let fills ← f.withDefault "overlay_styles" .empty (Keyed.ofJson? Color.ofJson?)
  return ⟨width, height, title, pixelRatio, insets, scales, series, crosshair, zone, fills⟩

/-- Gives the ladder axis its rule if it needs one. -/
def restoreRule (o : Options Float) : Options Float :=
  { o with scales := o.scales.modify Axis.y.key fun s =>
      if !s.auto && s.rule.isNone then { s with rule := some ladderRule } else s }

def toText (o : Options Float) : String := o.toJson.pretty

def ofText [Atlas] (text : String) : Except Fault (Options Float) :=
  match (Json.ofString? text).bind ofJson? with
  | some o => .ok o.restoreRule
  | none => .error (.data .optionsMalformed)

end Options
end LadderChart
