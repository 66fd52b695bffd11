import LadderChart.Data.Dataset
import LadderChart.Data.Extent
import LadderChart.Data.Window

/-!
Scales: how a value becomes a place on an axis, and which range of values an axis shows. Columns are
spaced evenly (ordinal) or by their value (linear). A scale without a range is degenerate, and
nothing is projected onto it.
-/

namespace LadderChart

inductive Axis where
  | x | y
  deriving DecidableEq, Repr

inductive Distribution where
  | ordinal | linear
  deriving DecidableEq, Repr

structure Scale (α : Type) where
  distribution : Distribution
  range : Option (α × α)
  deriving DecidableEq

namespace Scale
variable {α : Type}

def degenerate (d : Distribution) : Scale α := ⟨d, none⟩

def isDegenerate (s : Scale α) : Bool := s.range.isNone

variable [Scalar α]

/-- The extent of all rungs in a window. A missing column does not count as zero. -/
def ladderRange (ladders : Matrix α) (w : Window) : Option (α × α) :=
  Extent.of ((w.slice ladders).filterMap id).flatten

/-- The bounds of a window, or the extent of the series in it; a window that reaches past the
series has none. -/
def columnRange (d : Distribution) (series : List α) (w : Window) : Option (α × α) :=
  match d with
  | .ordinal => some (Scalar.ofNat w.first, Scalar.ofNat w.last)
  | .linear => if w.last < series.length then Extent.of (w.slice series) else none

def builtinRange (axis : Axis) (d : Distribution) (data : Dataset α) (w : Window) :
    Option (α × α) :=
  match axis with
  | .x => columnRange d data.series w
  | .y => ladderRange data.ladders w

end Scale
end LadderChart
