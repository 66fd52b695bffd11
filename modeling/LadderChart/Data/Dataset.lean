import LadderChart.Data.ColorRange

/-!
The data behind a chart, and the check of them, `validate`: a series, and for every index a ladder
of rungs with a weight for each of them. An index may have neither. How data are stored and shared
is left out.
-/

namespace LadderChart

abbrev Matrix (α : Type) := List (Option (List α))

structure Dataset (α : Type) where
  series : List α
  ladders : Matrix α
  weights : Matrix α
  colorRange : ColorRange α
  deriving DecidableEq

namespace Dataset
variable {α : Type}

def length (d : Dataset α) : Nat := d.series.length

def isEmpty (d : Dataset α) : Bool := d.series.isEmpty

def rungsAt (d : Dataset α) (index : Nat) : List α := (d.ladders[index]?.join).getD []

def weightsAt (d : Dataset α) (index : Nat) : List α := (d.weights[index]?.join).getD []

/-- A dataset in which no index is missing. -/
def dense (series : List α) (ladders weights : List (List α)) (range : ColorRange α) : Dataset α :=
  ⟨series, ladders.map some, weights.map some, range⟩

variable [Scalar α]

/-- Both entries of an index are there or both are missing; there is one weight for each rung, and
all of them are finite. -/
def checkColumn (index : Nat) : Option (List α) → Option (List α) → Check
  | none, none => .ok ()
  | some rungs, some weights =>
      if rungs.length = weights.length then
        refuseIf (!(rungs ++ weights).all Scalar.isFinite) (.cellNotFinite index)
      else .error (.shape (.weightsPerRung index rungs.length weights.length))
  | _, _ => .error (.shape (.oneSided index))

def checkColumns (index : Nat) : Matrix α → Matrix α → Check
  | rungs :: ladders, weights :: rest => do
      checkColumn index rungs weights
      checkColumns (index + 1) ladders rest
  | _, _ => .ok ()

def checkSeries (index : Nat) : List α → Check
  | [] => .ok ()
  | x :: rest => do
      refuseIf (!Scalar.isFinite x) (.seriesNotFinite index)
      checkSeries (index + 1) rest

/-- Every condition on shape and values, in a fixed order. -/
def check (d : Dataset α) : Check := do
  d.colorRange.check
  if d.ladders.length ≠ d.length then
    throw (.shape (.ladderCount d.ladders.length d.length))
  if d.weights.length ≠ d.length then
    throw (.shape (.weightCount d.weights.length d.length))
  checkColumns 0 d.ladders d.weights
  checkSeries 0 d.series

end Dataset
end LadderChart
