import LadderChart.Command.Sample
import LadderChart.Data.Records
import LadderChart.Engine.Call
import LadderChart.Engine.Snapshot
import LadderChart.Number.Reading
import LadderChart.Plugin.Standard
import LadderChart.Time.Places

/-!
The command line. It shows the standard chart of a file of records, or of the sample, and prints
the snapshot of the engine; on request a pointer is moved over the plot first. Files are read
outside, and places looked up in the atlas at hand. No picture is written: without a painter
`--output` is refused, and with one it is not modelled.
-/

namespace LadderChart.Command

def usage : String :=
  "Usage: heat_ladder_render [options]\n\n" ++
  "Options:\n" ++
  "  --input <path>         JSON-lines ladder records (default: built-in sample)\n" ++
  "  --output <path>        Write a PNG (requires feature `cairo-backend`)\n" ++
  "  --tz <zone>            IANA timezone for time labels (default: UTC)\n" ++
  "  --pixel-ratio <ratio>  Device pixels per CSS pixel (default: 1)\n" ++
  "  --hover <x,y>          Simulate a pointer at plot-relative CSS pixels\n" ++
  "  -h, --help             Show this message"

inductive FileFault where
  | missing
  | denied
  | directory
  | notText
  | other (text : String)
  deriving DecidableEq, Repr

def FileFault.message : FileFault → String
  | .missing => "No such file or directory (os error 2)"
  | .denied => "Permission denied (os error 13)"
  | .directory => "Is a directory (os error 21)"
  | .notText => "stream did not contain valid UTF-8"
  | .other text => text

inductive Refusal where
  | missingValue (option : String)
  | unknownZone (name : String)
  | badRatio (text : String) (cause : NumberFault)
  | noPoint (text : String)
  | badCoordinate (axis : Axis) (text : String) (cause : NumberFault)
  | unknownArgument (argument : String)
  | unreadable (path : String) (cause : FileFault)
  | noPainter
  | fault (fault : Fault)

def Refusal.message : Refusal → String
  | .missingValue option => s!"missing value for {option}"
  | .unknownZone name => s!"unknown timezone `{name}`: failed to parse timezone"
  | .badRatio text cause => s!"invalid --pixel-ratio `{text}`: {cause.message}"
  | .noPoint text => s!"expected `x,y`, got `{text}`"
  | .badCoordinate axis text cause => s!"invalid hover {axis.key} `{text}`: {cause.message}"
  | .unknownArgument argument => s!"unknown argument `{argument}`\n\n{usage}"
  | .unreadable path cause => s!"failed to read `{path}`: {cause.message}"
  | .noPainter => "--output requires feature `cairo-backend`"
  | .fault f => f.message

structure Request where
  input : Option String
  output : Option String
  zone : Zone
  pixelRatio : Float
  hover : Option (Float × Float)

def Request.standard : Request := ⟨none, none, .utc, 1.0, none⟩

inductive Wish where
  | help
  | chart (request : Request)

def coordinate (axis : Axis) (text : List Char) : Except Refusal Float :=
  (Reading.double (String.ofList (Text.trim text))).mapError
    (.badCoordinate axis (String.ofList text))

def point (text : String) : Except Refusal (Float × Float) :=
  let x := text.toList.takeWhile (· != ',')
  match text.toList.dropWhile (· != ',') with
  | [] => .error (.noPoint text)
  | _ :: y => do
      let x ← coordinate .x x
      let y ← coordinate .y y
      return (x, y)

/-- Sets what an option with a value asks for; `none` if there is no such option. -/
def setOption [Atlas] (request : Request) (option value : String) : Option (Except Refusal Request) :=
  match option with
  | "--input" => some (.ok { request with input := some value })
  | "--output" => some (.ok { request with output := some value })
  | "--tz" =>
      some (match Atlas.place? value with
        | some p => .ok { request with zone := .place p }
        | none => .error (.unknownZone value))
  | "--pixel-ratio" =>
      some (match Reading.double value with
        | .ok ratio => .ok { request with pixelRatio := ratio }
        | .error cause => .error (.badRatio value cause))
  | "--hover" => some ((point value).map fun p => { request with hover := some p })
  | _ => none

/-- Arguments are taken one after the other; a request for help ends them. -/
def wish [Atlas] (request : Request) : List String → Except Refusal Wish
  | [] => .ok (.chart request)
  | option :: rest =>
      if option = "--help" ∨ option = "-h" then .ok .help
      else
        match rest with
        | [] =>
            match setOption request option "" with
            | some _ => .error (.missingValue option)
            | none => .error (.unknownArgument option)
        | value :: rest =>
            match setOption request option value with
            | some (.ok request) => wish request rest
            | some (.error refusal) => .error refusal
            | none => .error (.unknownArgument option)

def liftFault {τ : Type} (x : Except Fault τ) : Except Refusal τ := x.mapError .fault

/-- The data of a request; `read` gives the text of a file. -/
def dataset (read : String → Except FileFault String) :
    Option String → Except Refusal (Dataset Float)
  | none => .ok sample
  | some path => do
      let text ← (read path).mapError (.unreadable path)
      let records ← liftFault (Record.ofText text)
      liftFault (Dataset.ofRecords records none)

abbrev Chart := Engine Band (Recorder Float) Float

def settle (outcome : Outcome Band (Recorder Float) Float) : Except Refusal Chart :=
  match outcome.fault with
  | some fault => .error (.fault fault)
  | none => .ok outcome.engine

def openChart (request : Request) (data : Dataset Float) : Except Refusal Chart :=
  let o : Options Float := Options.standard
  match Engine.openWith Recorder.backend .fresh
      (.standard { o with zone := request.zone, pixelRatio := request.pixelRatio }) data with
  | .refused _ _ fault => .error (.fault fault)
  | .opened e => .ok e

def selectionLine (s : Selection Float) : String :=
  let finish := Scalar.plain s.finish
  s!"selection: index={s.index} time=[{Scalar.plain s.start}, {finish}) " ++
    s!"value={Scalar.fixed 2 s.value}\n"

def hoverAt (e : Chart) (x y : Float) : Except Refusal (Chart × String) := do
  let entered ← settle e.pointerEnter
  let moved ← settle (entered.pointerMove x y)
  return (moved, ((moved.select? x y).map selectionLine).getD "")

def charted (read : String → Except FileFault String) (request : Request) :
    Except Refusal String := do
  -- the input is read even if nothing can be painted
  let data ← dataset read request.input
  if request.output.isSome then throw .noPainter
  let e ← openChart request data
  let shown ← match request.hover with
    | some (x, y) => hoverAt e x y
    | none => .ok (e, "")
  return shown.2 ++ shown.1.snapshot.toText ++ "\n"

structure Reply where
  code : Nat
  out : String
  err : String

def refuse (refusal : Refusal) : Reply := ⟨1, "", s!"error: {refusal.message}\n"⟩

def reply [Atlas] (read : String → Except FileFault String) (arguments : List String) : Reply :=
  match wish .standard arguments with
  | .error refusal => refuse refusal
  | .ok .help => ⟨0, usage ++ "\n", ""⟩
  | .ok (.chart request) =>
      match charted read request with
      | .error refusal => refuse refusal
      | .ok out => ⟨0, out, ""⟩

end LadderChart.Command
