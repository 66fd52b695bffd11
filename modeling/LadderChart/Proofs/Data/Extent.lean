import LadderChart.Data.Extent
import LadderChart.Proofs.Number.Order

/-!
An extent is made of two of its values, and all of them lie between. Values that are no number are
passed over, so this is said of lists of numbers.
-/

namespace LadderChart.Extent
variable {α : Type} [Scalar α]

/-- The bounds are values of the list and enclose it; only the empty list has none. -/
def Spans (values : List α) : Option (α × α) → Prop
  | none => values = []
  | some (low, high) => low ∈ values ∧ high ∈ values ∧ ∀ x ∈ values, low ≤ x ∧ x ≤ high

variable [Scalar.Ordered α]
open Scalar Scalar.Ordered

theorem lower_spec (x y : α) (numberX : isNaN x = false) (numberY : isNaN y = false) :
    (lower x y = x ∨ lower x y = y) ∧ lower x y ≤ x ∧ lower x y ≤ y := by
  by_cases less : y < x
  · have same : lower x y = y := by simp [lower, less]
    rw [same]
    exact ⟨.inr rfl, le_of_lt less, le_refl numberY⟩
  · have same : lower x y = x := by simp [lower, less, numberX]
    rw [same]
    exact ⟨.inl rfl, le_refl numberX, le_of_not_lt numberX numberY less⟩

theorem upper_spec (x y : α) (numberX : isNaN x = false) (numberY : isNaN y = false) :
    (upper x y = x ∨ upper x y = y) ∧ x ≤ upper x y ∧ y ≤ upper x y := by
  by_cases less : x < y
  · have same : upper x y = y := by simp [upper, less]
    rw [same]
    exact ⟨.inr rfl, le_of_lt less, le_refl numberY⟩
  · have same : upper x y = x := by simp [upper, less, numberX]
    rw [same]
    exact ⟨.inl rfl, le_refl numberX, le_of_not_lt numberY numberX less⟩

theorem widen_spans (seen : List α) (bounds : Option (α × α)) (x : α)
    (numbers : ∀ y ∈ seen, isNaN y = false) (number : isNaN x = false) (spans : Spans seen bounds) :
    Spans (seen ++ [x]) (widen bounds x) := by
  cases bounds with
  | none =>
      have empty : seen = [] := spans
      have one : widen none x = some (x, x) := by simp [widen, number]
      rw [empty, one]
      refine ⟨List.mem_singleton_self x, List.mem_singleton_self x, ?_⟩
      intro y member
      rw [List.mem_singleton.mp member]
      exact ⟨le_refl number, le_refl number⟩
  | some bounds =>
      obtain ⟨low, high⟩ := bounds
      obtain ⟨lowSeen, highSeen, between⟩ := spans
      obtain ⟨lowOne, lowLow, lowX⟩ := lower_spec low x (numbers low lowSeen) number
      obtain ⟨highOne, highHigh, highX⟩ := upper_spec high x (numbers high highSeen) number
      refine ⟨?_, ?_, ?_⟩
      · rcases lowOne with same | same <;> simp [same, lowSeen]
      · rcases highOne with same | same <;> simp [same, highSeen]
      · intro y member
        rcases List.mem_append.mp member with before | last
        · exact ⟨le_trans lowLow (between y before).1, le_trans (between y before).2 highHigh⟩
        · rw [List.mem_singleton.mp last]
          exact ⟨lowX, highX⟩

theorem foldl_spans (rest seen : List α) (bounds : Option (α × α))
    (numbers : ∀ x ∈ seen ++ rest, isNaN x = false) (spans : Spans seen bounds) :
    Spans (seen ++ rest) (rest.foldl widen bounds) := by
  -- what was folded already is a parameter: the bounds are its extent at every step
  induction rest generalizing seen bounds with
  | nil => simpa using spans
  | cons x rest ih =>
      have regroup : seen ++ x :: rest = seen ++ [x] ++ rest := by simp
      rw [regroup] at numbers ⊢
      have one : Spans (seen ++ [x]) (widen bounds x) :=
        widen_spans seen bounds x (fun y member => numbers y (by simp [member]))
          (numbers x (by simp)) spans
      exact ih (seen ++ [x]) (widen bounds x) numbers one

theorem of_spans (values : List α) (numbers : ∀ x ∈ values, isNaN x = false) :
    Spans values (of values) :=
  foldl_spans values [] none numbers rfl

/-! ### Ranges that can serve as an axis -/

omit [Scalar.Ordered α] in
/-- There is no range, or its bounds are finite and in order. -/
def Proper : Option (α × α) → Prop
  | none => True
  | some (low, high) => isFinite low = true ∧ isFinite high = true ∧ low ≤ high

theorem proper_proper (range : Option (α × α)) : Proper (proper range) := by
  unfold proper
  split
  · split
    · rename_i low high checked
      obtain ⟨finiteLow, finiteHigh, ordered⟩ := checked
      exact ⟨finiteLow, finiteHigh,
        le_of_not_lt (number_of_finite finiteLow) (number_of_finite finiteHigh) ordered⟩
    · trivial
  · trivial

theorem of_proper (values : List α) (finite : ∀ x ∈ values, isFinite x = true) :
    Proper (of values) := by
  have spans := of_spans values fun x member => number_of_finite (finite x member)
  cases found : of values with
  | none => trivial
  | some bounds =>
      rw [found] at spans
      obtain ⟨lowIn, highIn, between⟩ := spans
      exact ⟨finite _ lowIn, finite _ highIn, (between _ highIn).1⟩

end LadderChart.Extent
