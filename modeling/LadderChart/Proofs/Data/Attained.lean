import LadderChart.Chart.Options
import LadderChart.Proofs.Data.Slice

/-!
The ranges that data ask for are the true extents of what a window shows. Their bounds are values in
the window and enclose all of them. Rungs are collected from as much of the window as the ladders
reach; the series has a range only if it reaches to the end of the window.
-/

namespace LadderChart

namespace Extent
variable {α : Type} [Scalar α]

/-- Bounds that are among some values and enclose all of them. -/
def Attains (shown : α → Prop) (low high : α) : Prop :=
  shown low ∧ shown high ∧ ∀ x, shown x → low ≤ x ∧ x ≤ high

theorem of_attains [Scalar.Ordered α] {values : List α} {shown : α → Prop}
    (same : ∀ x, x ∈ values ↔ shown x) (numbers : ∀ x, shown x → Scalar.isNaN x = false) :
    ((of values).isSome = true ↔ ∃ x, shown x) ∧
      ∀ low high, of values = some (low, high) → Attains shown low high := by
  simp only [← same] at numbers
  have spans := of_spans values numbers
  cases found : of values with
  | none =>
      rw [found] at spans
      have nothing : ¬ ∃ x, shown x := by
        rintro ⟨x, there⟩
        rw [← same, show values = [] from spans] at there
        cases there
      exact ⟨iff_of_false Bool.false_ne_true nothing, fun _ _ none => nomatch none⟩
  | some bounds =>
      rw [found] at spans
      obtain ⟨lowIn, highIn, between⟩ := spans
      constructor
      · exact iff_of_true rfl ⟨bounds.1, (same _).mp lowIn⟩
      · rintro _ _ ⟨⟩
        exact ⟨(same _).mp lowIn, (same _).mp highIn, fun x there => between x ((same x).mpr there)⟩

end Extent

namespace Window
variable {τ : Type} (w : Window)

def Shows (xs : List τ) (x : τ) : Prop := ∃ index, w.contains index = true ∧ xs[index]? = some x

/-- What a window shows of the entries of ladders; an entry that is missing shows nothing. -/
def ShowsRung (ladders : Matrix τ) (x : τ) : Prop := ∃ rungs, w.Shows ladders (some rungs) ∧ x ∈ rungs

theorem mem_slice_iff (xs : List τ) (x : τ) : x ∈ w.slice xs ↔ w.Shows xs x := by
  constructor
  · intro member
    obtain ⟨k, found⟩ := List.mem_iff_getElem?.mp member
    have inside : k < w.size := by
      have bound := (List.getElem?_eq_some_iff.mp found).1
      simp only [slice, List.length_take] at bound
      omega
    have ordered := w.ordered
    rw [w.getElem_slice xs k inside] at found
    refine ⟨w.first + k, (w.contains_iff _).mpr ⟨Nat.le_add_right _ _, ?_⟩, found⟩
    simp only [size, span] at inside
    omega
  · rintro ⟨index, inside, found⟩
    exact w.mem_slice xs index x inside found

theorem mem_rungs_iff (ladders : Matrix τ) (x : τ) :
    x ∈ ((w.slice ladders).filterMap id).flatten ↔ w.ShowsRung ladders x := by
  simp only [List.mem_flatten, List.mem_filterMap, id_eq, exists_eq_right, mem_slice_iff, ShowsRung]

/-- A slice is made of the entries in the window, whatever stands outside. -/
theorem slice_congr {xs ys : List τ}
    (same : ∀ index, w.contains index = true → xs[index]? = ys[index]?) :
    w.slice xs = w.slice ys := by
  apply List.ext_getElem?
  intro k
  by_cases inside : k < w.size
  · rw [w.getElem_slice xs k inside, w.getElem_slice ys k inside]
    have ordered := w.ordered
    simp only [size, span] at inside
    exact same _ ((w.contains_iff _).mpr ⟨Nat.le_add_right _ _, by omega⟩)
  · simp only [slice, List.getElem?_take, if_neg inside]

end Window

namespace Scale
variable {α : Type} [Scalar α] [Scalar.Ordered α] {w : Window}

theorem ladderRange_attains {ladders : Matrix α}
    (numbers : ∀ x, w.ShowsRung ladders x → Scalar.isNaN x = false) :
    ((ladderRange ladders w).isSome = true ↔ ∃ x, w.ShowsRung ladders x) ∧
      ∀ low high, ladderRange ladders w = some (low, high) →
        Extent.Attains (w.ShowsRung ladders) low high :=
  Extent.of_attains (w.mem_rungs_iff ladders) numbers

theorem columnRange_attains {series : List α}
    (numbers : ∀ x, w.Shows series x → Scalar.isNaN x = false) :
    (columnRange .linear series w = none ↔ series.length ≤ w.last) ∧
      ∀ low high, columnRange .linear series w = some (low, high) →
        Extent.Attains (w.Shows series) low high := by
  by_cases inside : w.last < series.length
  · obtain ⟨found, attained⟩ := Extent.of_attains (w.mem_slice_iff series) numbers
    -- a window inside the series shows a value at least
    have column : w.Shows series series[w.last] :=
      ⟨w.last, (w.contains_iff _).mpr ⟨w.ordered, le_rfl⟩, List.getElem?_eq_getElem inside⟩
    simp only [columnRange, if_pos inside]
    refine ⟨iff_of_false ?_ (not_le.mpr inside), attained⟩
    rw [← ne_eq, ← Option.isSome_iff_ne_none]
    exact found.mpr ⟨_, column⟩
  · simp [columnRange, inside, not_lt.mp inside]

/-- The range of the ladders is the extent of the rungs in the window, and there is one exactly if
there are rungs; what stands outside the window makes no difference, and the rule of the ladder axis
answers the same. The range of a series is its extent over the window, and there is none exactly if
the window reaches past its end. -/
theorem ranges_attained (data : Dataset α) (w : Window)
    (rungs : ∀ x, w.ShowsRung data.ladders x → Scalar.isNaN x = false)
    (series : ∀ x, w.Shows data.series x → Scalar.isNaN x = false) :
    ((ladderRange data.ladders w).isSome = true ↔ ∃ x, w.ShowsRung data.ladders x) ∧
    (∀ low high, ladderRange data.ladders w = some (low, high) →
      Extent.Attains (w.ShowsRung data.ladders) low high) ∧
    (∀ ladders : Matrix α,
      (∀ index, w.contains index = true → ladders[index]? = data.ladders[index]?) →
      ladderRange ladders w = ladderRange data.ladders w) ∧
    Options.ladderRule data w = ladderRange data.ladders w ∧
    (columnRange .linear data.series w = none ↔ data.series.length ≤ w.last) ∧
    ∀ low high, columnRange .linear data.series w = some (low, high) →
      Extent.Attains (w.Shows data.series) low high := by
  obtain ⟨found, attained⟩ := ladderRange_attains rungs
  obtain ⟨past, reached⟩ := columnRange_attains series
  refine ⟨found, attained, ?_, rfl, past, reached⟩
  intro ladders same
  simp only [ladderRange, w.slice_congr same]

def raggedColumns : Dataset Float :=
  ⟨[1.0, 3.0, 2.0, 2.5], [some [8.0, 5.0], none, some [], some [7.0, 1.0 / 0.0]], [], ⟨0.0, 1.0⟩⟩

theorem ragged_ranges_attained :
    ladderRange raggedColumns.ladders ⟨1, 9, by decide⟩ = some (7.0, 1.0 / 0.0) ∧
      Extent.Attains (Window.ShowsRung ⟨1, 9, by decide⟩ raggedColumns.ladders) 7.0 (1.0 / 0.0) ∧
      columnRange .linear raggedColumns.series ⟨1, 9, by decide⟩ = none := by
  have rungs : ([7.0, 1.0 / 0.0].all fun x : Float => !Scalar.isNaN x) = true := by decide
  have series : ([3.0, 2.0, 2.5].all fun x : Float => !Scalar.isNaN x) = true := by decide
  simp only [List.all_eq_true, Bool.not_eq_true'] at rungs series
  have range : ladderRange raggedColumns.ladders ⟨1, 9, by decide⟩ = some (7.0, 1.0 / 0.0) := by
    decide
  obtain ⟨_, attained, _, _, past, _⟩ := ranges_attained raggedColumns ⟨1, 9, by decide⟩
    (fun x shown => rungs x ((Window.mem_rungs_iff _ _ x).mpr shown))
    (fun x shown => series x ((Window.mem_slice_iff _ _ x).mpr shown))
  exact ⟨range, attained _ _ range, past.mpr (by decide)⟩

end Scale
end LadderChart
