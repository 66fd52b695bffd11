import LadderChart.Engine.Basic
import LadderChart.Proofs.Data.Extent
import LadderChart.Proofs.Data.Valid

/-!
The ranges of the axes. Whatever a rule answers, and whatever valid data are shown, an axis has no
range or one with finite bounds in order.
-/

namespace LadderChart
variable {α : Type} [Scalar α] [Scalar.Ordered α]

omit [Scalar α] [Scalar.Ordered α] in
theorem Window.mem_of_slice {τ : Type} (w : Window) (xs : List τ) (x : τ)
    (member : x ∈ w.slice xs) : x ∈ xs :=
  List.mem_of_mem_drop (List.mem_of_mem_take member)

omit [Scalar.Ordered α] in
/-- All the rungs of a window are finite. -/
theorem Dataset.Valid.shown_rungs {data : Dataset α} (valid : data.Valid) (w : Window) :
    ∀ x ∈ ((w.slice data.ladders).filterMap id).flatten, Scalar.isFinite x = true := by
  intro x member
  obtain ⟨rungs, found, inside⟩ := List.mem_flatten.mp member
  obtain ⟨column, sliced, some⟩ := List.mem_filterMap.mp found
  have shown : column ∈ data.ladders := w.mem_of_slice _ column sliced
  rw [show column = Option.some rungs from some] at shown
  exact valid.rungs rungs shown x inside

namespace Scale

theorem columnRange_proper (d : Distribution) (data : Dataset α) (w : Window) (valid : data.Valid)
    (inside : w.last < data.length) (words : data.length ≤ Scalar.largestIndex) :
    Extent.Proper (columnRange d data.series w) := by
  cases d with
  | ordinal =>
      have last : w.last ≤ Scalar.largestIndex := by omega
      have first : w.first ≤ Scalar.largestIndex := w.ordered.trans last
      exact ⟨Scalar.Ordered.finite_ofNat first, Scalar.Ordered.finite_ofNat last,
        Scalar.Ordered.ofNat_mono w.ordered last⟩
  | linear =>
      simp only [columnRange]
      split
      · exact Extent.of_proper _ fun x member => valid.series x (w.mem_of_slice _ x member)
      · trivial

theorem ladderRange_proper (data : Dataset α) (w : Window) (valid : data.Valid) :
    Extent.Proper (ladderRange data.ladders w) :=
  Extent.of_proper _ (valid.shown_rungs w)

end Scale

namespace Engine

/-- A rule is passed over if it cannot serve, so it is enough that what the data ask for can. -/
theorem proper_of_builtin (o : Options α) (data : Dataset α) (window : Option Window) (axis : Axis)
    (builtin : ∀ d w, window = some w → Extent.Proper (Scale.builtinRange axis d data w)) :
    Extent.Proper (resolveAxis o data window axis).range := by
  unfold resolveAxis
  split
  · trivial
  · rename_i s _
    cases window with
    | none => trivial
    | some w =>
        cases s.rule with
        | some rule => exact Extent.proper_proper (rule data w)
        | none => exact builtin s.distribution w rfl

theorem resolveAxis_proper (o : Options α) (data : Dataset α) (window : Option Window) (axis : Axis)
    (valid : data.Valid) (inside : ∀ w, window = some w → w.last < data.length)
    (words : data.length ≤ Scalar.largestIndex) :
    Extent.Proper (resolveAxis o data window axis).range := by
  apply proper_of_builtin
  intro d w shown
  cases axis with
  | x => exact Scale.columnRange_proper d data w valid (inside w shown) words
  | y => exact Scale.ladderRange_proper data w valid

end Engine
end LadderChart
