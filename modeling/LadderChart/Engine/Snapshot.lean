import LadderChart.Chart.OptionsText
import LadderChart.Engine.Basic

/-!
Snapshots: the state of an engine as a value that can be written (`snapshot_json_pretty`) and read
back. Options, plugins and backend are no part of it.
-/

namespace LadderChart

structure Snapshot (α : Type) where
  viewport : Viewport
  pixelRatio : α
  box : Box α
  length : Nat
  colorRange : α × α
  window : Option Window
  xScale : Scale α
  yScale : Scale α
  cursor : Cursor α
  pluginIds : List String
  overlay : List (Element α)
  /-- How much of each kind of ink the last pass left. -/
  ink : Keyed Nat

namespace Engine
variable {σ ρ α : Type}

def inkCounts (l : Layer α) : Keyed Nat :=
  .ofList [("lines", l.lines.length), ("rects", l.rects.length), ("texts", l.labels.length)]

def snapshot (e : Engine σ ρ α) : Snapshot α where
  viewport := e.scene.viewport
  pixelRatio := e.scene.pixelRatio
  box := e.scene.box
  length := e.scene.data.length
  colorRange := (e.scene.data.colorRange.low, e.scene.data.colorRange.high)
  window := e.scene.window
  xScale := e.scene.xScale
  yScale := e.scene.yScale
  cursor := e.scene.cursor
  pluginIds := e.plugins.map (·.id)
  overlay := e.surfaces.under.elements
  ink := inkCounts e.surfaces.canvas.ink

end Engine

/-! ### JSON -/

def Json.ofPair (p : Float × Float) : Json := .list [.double p.1, .double p.2]

def Json.index? (j : Json) : Option Nat := j.natUpTo? Scalar.largestIndex

def Viewport.toJson (v : Viewport) : Json :=
  .record [("width", .nat v.width.toNat), ("height", .nat v.height.toNat)]

def Viewport.ofJson? (j : Json) : Option Viewport := do
  let f ← j.fields? ["width", "height"]
  let width ← f.required "width" Json.word32?
  let height ← f.required "height" Json.word32?
  return ⟨width, height⟩

def Box.toJson (b : Box Float) : Json :=
  .record [("left", .double b.left), ("top", .double b.top), ("width", .double b.width),
    ("height", .double b.height)]

def Box.ofJson? (j : Json) : Option (Box Float) := do
  let f ← j.fields? ["left", "top", "width", "height"]
  let left ← f.required "left" Json.double?
  let top ← f.required "top" Json.double?
  let width ← f.required "width" Json.double?
  let height ← f.required "height" Json.double?
  return ⟨left, top, width, height⟩

def Scale.toJson (s : Scale Float) : Json :=
  .record [("distribution", s.distribution.toJson), ("range", .optional .ofPair s.range)]

def Scale.ofJson? (j : Json) : Option (Scale Float) := do
  let f ← j.fields? ["distribution", "range"]
  let distribution ← f.required "distribution" Distribution.ofJson?
  let range ← f.optional "range" (Json.pair? Json.double?)
  return ⟨distribution, range⟩

def Cursor.toJson (c : Cursor Float) : Json :=
  .record [("index", .optional .nat c.index), ("pointer", .optional .ofPair c.pointer)]

def Cursor.ofJson? (j : Json) : Option (Cursor Float) := do
  let f ← j.fields? ["index", "pointer"]
  let index ← f.optional "index" Json.index?
  let pointer ← f.optional "pointer" (Json.pair? Json.double?)
  return ⟨index, pointer⟩

def Element.toJson (e : Element Float) : Json :=
  .record [("class_name", .optional .string e.className), ("fill", e.fill.toJson),
    ("visible", .bool e.visible), ("translate_x", .double e.offset), ("width", .double e.width)]

def Element.ofJson? (j : Json) : Option (Element Float) := do
  let f ← j.fields? ["class_name", "fill", "visible", "translate_x", "width"]
  let className ← f.optional "class_name" Json.string?
  let fill ← f.required "fill" Color.ofJson?
  let visible ← f.required "visible" Json.bool?
  let offset ← f.required "translate_x" Json.double?
  let width ← f.required "width" Json.double?
  return ⟨className, fill, visible, offset, width⟩

namespace Snapshot

def fieldNames : List String :=
  ["viewport", "pixel_ratio", "bbox", "series_len", "color_range", "window", "x_scale", "y_scale",
    "cursor", "plugin_ids", "overlay", "main_ink"]

def toJson (s : Snapshot Float) : Json :=
  .record [("viewport", s.viewport.toJson), ("pixel_ratio", .double s.pixelRatio),
    ("bbox", s.box.toJson), ("series_len", .nat s.length),
    ("color_range", .ofPair s.colorRange), ("window", .optional Window.toJson s.window),
    ("x_scale", s.xScale.toJson), ("y_scale", s.yScale.toJson), ("cursor", s.cursor.toJson),
    ("plugin_ids", .list (s.pluginIds.map .string)),
    ("overlay", .list (s.overlay.map Element.toJson)), ("main_ink", s.ink.toJson .nat)]

def ofJson? (j : Json) : Option (Snapshot Float) := do
  let f ← j.fields? fieldNames
  let viewport ← f.required "viewport" Viewport.ofJson?
  let pixelRatio ← f.required "pixel_ratio" Json.double?
  let box ← f.required "bbox" Box.ofJson?
  let length ← f.required "series_len" Json.index?
  let colorRange ← f.required "color_range" (Json.pair? Json.double?)
  let window ← f.optional "window" Window.ofJson?
  let xScale ← f.required "x_scale" Scale.ofJson?
  let yScale ← f.required "y_scale" Scale.ofJson?
  let cursor ← f.required "cursor" Cursor.ofJson?
  let pluginIds ← f.required "plugin_ids" (Json.list? Json.string?)
  let overlay ← f.required "overlay" (Json.list? Element.ofJson?)
  let ink ← f.required "main_ink" (Keyed.ofJson? Json.index?)
  return { viewport, pixelRatio, box, length, colorRange, window, xScale, yScale, cursor,
           pluginIds, overlay, ink }

def toText (s : Snapshot Float) : String := s.toJson.pretty

def ofText? (text : String) : Option (Snapshot Float) := (Json.ofString? text).bind ofJson?

end Snapshot
end LadderChart
