import LadderChart.Fault
import LadderChart.Json.Fields
import LadderChart.Json.Writer
import LadderChart.Number.Scalar

/-!
Windows of indices, `IndexWindow`: a first and a last index, both included. That they are in order
is part of the type; that the last one lies inside a series is checked where the length is known.
Indices are natural numbers here; where a word of 64 bits is too short for one is looked at apart,
with the other operations that can stop a program.
-/

namespace LadderChart

structure Window where
  first : Nat
  last : Nat
  ordered : first ≤ last
  deriving DecidableEq

namespace Window

def make (first last length : Nat) : Except Fault Window :=
  if h : first ≤ last ∧ last < length then .ok ⟨first, last, h.1⟩
  else .error (.data (.windowOutside first last length))

/-- All of a series; an empty series has no window. -/
def full? : Nat → Option Window
  | 0 => none
  | n + 1 => some ⟨0, n, Nat.zero_le n⟩

def span (w : Window) : Nat := w.last - w.first

def size (w : Window) : Nat := w.span + 1

/-- The number of indices as a word of 64 bits, if it fits. -/
def count? (w : Window) : Option Nat :=
  if w.size ≤ Scalar.largestIndex then some w.size else none

def contains (w : Window) (index : Nat) : Bool :=
  decide (w.first ≤ index) && decide (index ≤ w.last)

def clamp (w : Window) (index : Nat) : Nat := max w.first (min index w.last)

def indices (w : Window) : List Nat := List.range' w.first w.size

/-- The indices `first`, `first + step`, `first + 2 * step`, … up to the last. -/
def everyNth (w : Window) (step : Nat) : List Nat := List.range' w.first (w.span / step + 1) step

def slice {τ : Type} (w : Window) (xs : List τ) : List τ := (xs.drop w.first).take w.size

/-! ### JSON -/

def fieldNames : List String := ["i_min", "i_max"]

def toJson (w : Window) : Json := .record [("i_min", .nat w.first), ("i_max", .nat w.last)]

/-- Only the order of the bounds is checked here, since no length is known. -/
def ofJson? (j : Json) : Option Window := do
  let fields ← j.fields? fieldNames
  let first ← fields.required "i_min" (Json.natUpTo? Scalar.largestIndex)
  let last ← fields.required "i_max" (Json.natUpTo? Scalar.largestIndex)
  if h : first ≤ last then some ⟨first, last, h⟩ else none

theorem mem_indices (w : Window) (index : Nat) : index ∈ w.indices ↔ w.contains index = true := by
  have ordered := w.ordered
  simp only [indices, contains, size, span, List.mem_range'_1, Bool.and_eq_true, decide_eq_true_eq]
  omega

theorem length_indices (w : Window) : w.indices.length = w.size := by
  simp [indices]

end Window
end LadderChart
