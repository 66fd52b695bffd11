import LadderChart.Data.Dataset
import LadderChart.Data.Extent
import LadderChart.Json.Reader
import LadderChart.Json.Writer
import LadderChart.Text.Blank

/-!
Records as they are delivered to `parse_json_lines` and `from_records`: one ladder with its time,
written as one JSON value a line. A batch of records makes a dataset in the order of time. Of a line
that is malformed the number is told, and not what is wrong with it.
-/

namespace LadderChart

structure Record (α : Type) where
  timestamp : α
  rungs : List α
  weights : List α
  deriving DecidableEq

namespace Record

/-! ### JSON lines -/

def fieldNames : List String := ["timestamp", "rungs", "weights"]

def ofJson? (j : Json) : Option (Record Float) := do
  let fields ← j.fields? fieldNames
  let timestamp ← fields.required "timestamp" Json.double?
  let rungs ← fields.withDefault "rungs" [] (Json.list? Json.double?)
  let weights ← fields.withDefault "weights" [] (Json.list? Json.double?)
  return ⟨timestamp, rungs, weights⟩

def toJson (r : Record Float) : Json :=
  .record [("timestamp", .double r.timestamp), ("rungs", .list (r.rungs.map .double)),
    ("weights", .list (r.weights.map .double))]

def ofLine? (line : List Char) : Option (Record Float) := (Json.read line).bind ofJson?

/-- Reads lines from the given number on. Blank lines count but hold nothing; the first line that
is no record is reported. -/
def readLines (number : Nat) : List (List Char) → Except Fault (List (Record Float))
  | [] => .ok []
  | line :: rest =>
      if line.all Text.isBlank then readLines (number + 1) rest
      else
        match ofLine? line with
        | none => .error (.data (.recordMalformed number))
        | some record => do
            let records ← readLines (number + 1) rest
            return record :: records

def readText (text : List Char) : Except Fault (List (Record Float)) :=
  readLines 1 (Text.lines text)

def ofText (text : String) : Except Fault (List (Record Float)) := readText text.toList

end Record

namespace Dataset
variable {α : Type} [Scalar α]

/-- The extent of all weights; without a weight the range is zero. -/
def observedRange (records : List (Record α)) : Except Fault (ColorRange α) :=
  match Extent.of (records.flatMap Record.weights) with
  | some (low, high) => ColorRange.make low high
  | none => .ok ColorRange.zero

/-- By time; records of the same time stay in the order in which they came. -/
def inOrder (records : List (Record α)) : List (Record α) :=
  records.mergeSort fun a b => !decide (b.timestamp < a.timestamp)

def checkTimes : List (Record α) → Check
  | [] => .ok ()
  | r :: rest => do
      refuseIf (!Scalar.isFinite r.timestamp) (.timestampNotFinite (Scalar.plain r.timestamp))
      checkTimes rest

def assemble (records : List (Record α)) (range : ColorRange α) : Dataset α :=
  dense (records.map (·.timestamp)) (records.map (·.rungs)) (records.map (·.weights)) range

/-- The dataset of a batch of records. A range that is given stands for the observed one. -/
def ofRecords (records : List (Record α)) (given : Option (ColorRange α)) :
    Except Fault (Dataset α) := do
  -- times come first, for without them there is no order
  checkTimes records
  let range ← match given with
    | some range => .ok range
    | none => observedRange records
  let data := assemble (inOrder records) range
  data.check
  return data

end Dataset
end LadderChart
