import LadderChart.Data.Dataset

/-!
What the check of a dataset accepts, as a condition on the data as a whole.
-/

namespace LadderChart

theorem both_eq_ok (first second : Check) :
    (do first; second) = .ok () ↔ first = .ok () ∧ second = .ok () := by
  cases first with
  | error fault => simp [bind, Except.bind]
  | ok done => simp [bind, Except.bind]

theorem throwIf_eq_ok (bad : Prop) [Decidable bad] (fault : Fault) (rest : PUnit → Check) :
    (if bad then (do rest (← throw fault)) else rest ()) = .ok () ↔ ¬ bad ∧ rest () = .ok () := by
  by_cases fails : bad
  · simp [fails, throw, throwThe, MonadExceptOf.throw, bind, Except.bind]
  · simp [fails]

theorem ColorRange.check_eq_ok {α : Type} [Scalar α] (r : ColorRange α) : r.check = .ok () ↔
    Scalar.isFinite r.low = true ∧ Scalar.isFinite r.high = true ∧ ¬ r.high < r.low := by
  unfold ColorRange.check
  by_cases finite : Scalar.isFinite r.low = true ∧ Scalar.isFinite r.high = true
  · by_cases inverted : r.high < r.low
    · simp [finite, inverted]
    · simp [finite, inverted]
  · rw [if_pos finite]
    simp only [reduceCtorEq, false_iff]
    intro accepted
    exact finite ⟨accepted.1, accepted.2.1⟩

namespace Dataset
variable {α : Type} [Scalar α]

/-- An index that is missing in both matrices, or has one finite weight for each finite rung. -/
def ColumnValid : Option (List α) → Option (List α) → Prop
  | none, none => True
  | some rungs, some weights =>
      rungs.length = weights.length ∧ ∀ x ∈ rungs ++ weights, Scalar.isFinite x = true
  | _, _ => False

structure Valid (d : Dataset α) : Prop where
  colors : Scalar.isFinite d.colorRange.low = true ∧ Scalar.isFinite d.colorRange.high = true ∧
    ¬ d.colorRange.high < d.colorRange.low
  ladders : d.ladders.length = d.length
  weights : d.weights.length = d.length
  columns : ∀ column ∈ d.ladders.zip d.weights, ColumnValid column.1 column.2
  series : ∀ x ∈ d.series, Scalar.isFinite x = true

theorem checkColumn_eq_ok (index : Nat) (rungs weights : Option (List α)) :
    checkColumn index rungs weights = .ok () ↔ ColumnValid rungs weights := by
  cases rungs with
  | none => cases weights <;> simp [checkColumn, ColumnValid]
  | some rungs =>
      cases weights with
      | none => simp [checkColumn, ColumnValid]
      | some weights =>
          by_cases paired : rungs.length = weights.length
          · simp only [checkColumn, ColumnValid, paired, refuseIf_eq_ok, Bool.not_eq_false',
              List.all_eq_true, if_true, true_and]
          · simp [checkColumn, ColumnValid, paired]

theorem checkColumns_eq_ok (index : Nat) (ladders weights : Matrix α) :
    checkColumns index ladders weights = .ok () ↔
      ∀ column ∈ ladders.zip weights, ColumnValid column.1 column.2 := by
  induction ladders generalizing index weights with
  | nil => simp [checkColumns]
  | cons rungs ladders ih =>
      cases weights with
      | nil => simp [checkColumns]
      | cons column weights =>
          simp only [checkColumns, both_eq_ok, checkColumn_eq_ok, ih, List.zip_cons_cons,
            List.forall_mem_cons]

theorem checkSeries_eq_ok (index : Nat) (series : List α) :
    checkSeries index series = .ok () ↔ ∀ x ∈ series, Scalar.isFinite x = true := by
  induction series generalizing index with
  | nil => simp [checkSeries]
  | cons x rest ih =>
      simp only [checkSeries, both_eq_ok, refuseIf_eq_ok, ih, List.forall_mem_cons,
        Bool.not_eq_false']

theorem check_eq_ok (d : Dataset α) : d.check = .ok () ↔ d.Valid := by
  unfold check
  simp only []
  rw [both_eq_ok, throwIf_eq_ok, throwIf_eq_ok, both_eq_ok, ColorRange.check_eq_ok,
    checkColumns_eq_ok, checkSeries_eq_ok]
  constructor
  · rintro ⟨colors, ladders, weights, columns, series⟩
    exact ⟨colors, Decidable.not_not.mp ladders, Decidable.not_not.mp weights, columns, series⟩
  · intro valid
    exact ⟨valid.colors, Decidable.not_not.mpr valid.ladders, Decidable.not_not.mpr valid.weights,
      valid.columns, valid.series⟩

theorem Valid.rungs {d : Dataset α} (valid : d.Valid) (rungs : List α)
    (member : some rungs ∈ d.ladders) (x : α) (inside : x ∈ rungs) : Scalar.isFinite x = true := by
  obtain ⟨i, bound, found⟩ := List.mem_iff_getElem.mp member
  -- the check went over both matrices side by side, so the weights have this index too
  have paired : i < d.weights.length := by
    rw [valid.weights, ← valid.ladders]
    exact bound
  have column : (some rungs, d.weights[i]) ∈ d.ladders.zip d.weights := by
    rw [← found]
    exact List.mem_iff_getElem.mpr ⟨i, by rw [List.length_zip]; omega, by simp⟩
  have checked := valid.columns _ column
  cases weights : d.weights[i] with
  | none => simp [ColumnValid, weights] at checked
  | some weights' =>
      simp only [ColumnValid, weights] at checked
      exact checked.2 x (List.mem_append_left _ inside)

end Dataset
end LadderChart
