import LadderChart.Main
import LadderChart.Plugin.Script
import LadderChart.Proofs.Engine.Turn
import LadderChart.Proofs.Engine.Work
import LadderChart.Proofs.Engine.Reach
import LadderChart.Proofs.Engine.Watch
import LadderChart.Proofs.Overlay.Shown
import LadderChart.Proofs.Number.Nearest
import LadderChart.Proofs.Number.Order
import LadderChart.Proofs.Data.Extent
import LadderChart.Proofs.Data.Valid
import LadderChart.Proofs.Plot.Range
import LadderChart.Proofs.Engine.Hit
import LadderChart.Proofs.Engine.Sound
import LadderChart.Proofs.Engine.Scales
import LadderChart.Proofs.Overlay.Elements
import LadderChart.Proofs.Overlay.Handles
import LadderChart.Proofs.Overlay.Hover
import LadderChart.Proofs.Engine.Frames
import LadderChart.Proofs.Standard.Hooks
import LadderChart.Proofs.Standard.Rest
import LadderChart.Proofs.Standard.Rebuild
import LadderChart.Proofs.Data.Records
import LadderChart.Proofs.Data.Slice
import LadderChart.Proofs.Number.Round
import LadderChart.Proofs.Standard.Zoom
import LadderChart.Proofs.Plot.Exact
import LadderChart.Proofs.Plot.Inverse
import LadderChart.Proofs.Engine.Aim
import LadderChart.Proofs.Ink.Heat
import LadderChart.Proofs.Ink.Valid
import LadderChart.Proofs.Number.Text
import LadderChart.Proofs.Standard.Ink
import LadderChart.Proofs.Standard.Band
import LadderChart.Proofs.Engine.Refusal
import LadderChart.Proofs.Engine.Schedule
import LadderChart.Proofs.Ink.Solo
import LadderChart.Proofs.Ink.Scopes
import LadderChart.Proofs.Engine.Isolation
import LadderChart.Proofs.Number.Within
import LadderChart.Proofs.Plot.Charted
import LadderChart.Proofs.Plot.Pixel
import LadderChart.Proofs.Plot.Ticks
import LadderChart.Proofs.Standard.Doubles
import LadderChart.Proofs.Plot.Spans
import LadderChart.Proofs.Standard.Drawn
import LadderChart.Proofs.Json.Literal
import LadderChart.Proofs.Json.Quoted
import LadderChart.Proofs.Json.Steps
import LadderChart.Proofs.Json.Trailing
import LadderChart.Proofs.Json.Layout
import LadderChart.Proofs.Json.Double
import LadderChart.Proofs.Data.Keyed
import LadderChart.Proofs.Json.Kept
import LadderChart.Proofs.Data.Lines
import LadderChart.Proofs.Chart.Options
import LadderChart.Proofs.Chart.OptionsText
import LadderChart.Proofs.Engine.SnapshotText
import LadderChart.Proofs.Plot.Ranged
import LadderChart.Proofs.Standard.Rungs
import LadderChart.Proofs.Plot.Guarded
import LadderChart.Proofs.Engine.Guarded
import LadderChart.Proofs.Overlay.Crosshair
import LadderChart.Proofs.Standard.Repaints
import LadderChart.Proofs.Engine.Resolved
import LadderChart.Proofs.Engine.Selection
import LadderChart.Proofs.Plot.Rescaled
import LadderChart.Proofs.Plot.Labels
import LadderChart.Proofs.Standard.Rescaled
import LadderChart.Proofs.Engine.Labels
import LadderChart.Proofs.Data.Attained
import LadderChart.Proofs.Data.Counted
import LadderChart.Proofs.Engine.Columns
import LadderChart.Proofs.Engine.Ticks
import LadderChart.Proofs.Time.Stamp
