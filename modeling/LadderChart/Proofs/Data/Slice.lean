import LadderChart.Proofs.Plot.Range

/-!
Slices. The part of the data in a window is a dataset of its own, and all of it is the same window
counted from zero. Index `first + k` of the whole is index `k` of the slice, and both have the same
ranges of values.
-/

namespace LadderChart

namespace Window

/-- The window of a slice of its own: as many indices, counted from zero. -/
def fromZero (w : Window) : Window := ⟨0, w.span, Nat.zero_le _⟩

section Counted
variable (w : Window)

theorem contains_iff (index : Nat) :
    w.contains index = true ↔ w.first ≤ index ∧ index ≤ w.last := by
  simp [contains]

@[simp] theorem fromZero_first : w.fromZero.first = 0 := rfl

@[simp] theorem fromZero_last : w.fromZero.last = w.span := rfl

@[simp] theorem fromZero_span : w.fromZero.span = w.span := rfl

@[simp] theorem fromZero_size : w.fromZero.size = w.size := rfl

theorem full_size : full? w.size = some w.fromZero := rfl

theorem indices_shift : w.indices = w.fromZero.indices.map (w.first + ·) := by
  simp [indices, List.map_add_range']

theorem everyNth_shift (step : Nat) :
    w.everyNth step = (w.fromZero.everyNth step).map (w.first + ·) := by
  simp [everyNth, List.map_add_range']

theorem lt_size_of_mem_indices (k : Nat) (member : k ∈ w.fromZero.indices) : k < w.size := by
  simpa [indices, List.mem_range'_1] using member

theorem lt_size_of_mem_everyNth (step k : Nat) (member : k ∈ w.fromZero.everyNth step) :
    k < w.size := by
  obtain ⟨i, inside, same⟩ := List.mem_range'.mp member
  have most : step * (w.span / step) ≤ w.span := Nat.mul_div_le w.span step
  have upTo : step * i ≤ step * (w.span / step) :=
    Nat.mul_le_mul_left step (Nat.lt_succ_iff.mp inside)
  rw [same, fromZero_first, size]
  omega

theorem everyNth_contains (step index : Nat) (member : index ∈ w.everyNth step) :
    w.contains index = true := by
  rw [everyNth_shift] at member
  obtain ⟨k, inside, same⟩ := List.mem_map.mp member
  have bound := w.lt_size_of_mem_everyNth step k inside
  have ordered := w.ordered
  simp only [size, span] at bound
  rw [contains_iff, ← same]
  omega

end Counted

section Lists
variable {τ υ : Type} (w : Window)

theorem getElem_slice (xs : List τ) (k : Nat) (inside : k < w.size) :
    (w.slice xs)[k]? = xs[w.first + k]? := by
  simp only [slice, List.getElem?_take, inside, if_true, List.getElem?_drop]

theorem length_slice (xs : List τ) (inside : w.last < xs.length) :
    (w.slice xs).length = w.size := by
  have ordered := w.ordered
  simp only [slice, List.length_take, List.length_drop, size, span]
  omega

theorem fromZero_slice (xs : List τ) : w.fromZero.slice (w.slice xs) = w.slice xs := by
  simp only [slice, fromZero_size, fromZero_first, List.drop_zero, List.take_take, Nat.min_self]

theorem slice_zip (xs : List τ) (ys : List υ) :
    (w.slice xs).zip (w.slice ys) = w.slice (xs.zip ys) := by
  simp only [slice, List.zip, List.drop_zipWith, List.take_zipWith]

/-- The columns of a window with their values are those of the whole. -/
theorem mem_columns (xs : List τ) (c : Nat × τ) :
    c ∈ w.indices.zip (w.slice xs) ↔ w.contains c.1 = true ∧ xs[c.1]? = some c.2 := by
  rw [List.mem_iff_getElem?]
  simp only [List.getElem?_zip_eq_some]
  constructor
  · rintro ⟨k, index, value⟩
    have bound : k < w.size := by
      rw [← w.length_indices]
      exact (List.getElem?_eq_some_iff.mp index).1
    have same : w.first + k = c.1 := by
      simpa [indices, List.getElem?_range' bound] using index
    refine ⟨(w.mem_indices c.1).mp (List.mem_of_getElem? index), ?_⟩
    rw [← same, ← w.getElem_slice xs k bound]
    exact value
  · rintro ⟨shown, value⟩
    obtain ⟨low, high⟩ := (w.contains_iff c.1).mp shown
    have bound : c.1 - w.first < w.size := by
      simp only [size, span]
      omega
    have back : w.first + (c.1 - w.first) = c.1 := by omega
    refine ⟨c.1 - w.first, ?_, ?_⟩
    · simp [indices, List.getElem?_range' bound, back]
    · rw [w.getElem_slice xs _ bound, back]
      exact value

theorem mem_slice (xs : List τ) (index : Nat) (x : τ) (shown : w.contains index = true)
    (value : xs[index]? = some x) : x ∈ w.slice xs :=
  (List.of_mem_zip ((w.mem_columns xs (index, x)).mpr ⟨shown, value⟩)).2

theorem columns_sorted (xs : List τ) :
    (w.indices.zip (w.slice xs)).Pairwise (fun c c' => c.1 < c'.1) := by
  refine List.pairwise_iff_getElem.mpr ?_
  intro i j inside inside' before
  simp only [List.getElem_zip, indices, List.getElem_range', one_mul, add_lt_add_iff_left]
  exact before

end Lists
end Window

namespace Dataset
variable {α : Type} (d : Dataset α) (w : Window)

/-- The columns in a window, with the colour range of the whole. -/
def slice : Dataset α :=
  ⟨w.slice d.series, w.slice d.ladders, w.slice d.weights, d.colorRange⟩

theorem length_slice (inside : w.last < d.length) : (d.slice w).length = w.size :=
  w.length_slice d.series inside

theorem rungsAt_slice (k : Nat) (inside : k < w.size) :
    (d.slice w).rungsAt k = d.rungsAt (w.first + k) := by
  simp only [rungsAt, slice, w.getElem_slice _ k inside]

theorem weightsAt_slice (k : Nat) (inside : k < w.size) :
    (d.slice w).weightsAt k = d.weightsAt (w.first + k) := by
  simp only [weightsAt, slice, w.getElem_slice _ k inside]

variable [Scalar α] {d w}

theorem Valid.slice (valid : d.Valid) (inside : w.last < d.length) : (d.slice w).Valid where
  colors := valid.colors
  ladders := (w.length_slice d.ladders (valid.ladders ▸ inside)).trans
    (length_slice d w inside).symm
  weights := (w.length_slice d.weights (valid.weights ▸ inside)).trans
    (length_slice d w inside).symm
  columns := by
    intro column member
    simp only [Dataset.slice, w.slice_zip] at member
    exact valid.columns column (w.mem_of_slice _ column member)
  series := fun x member => valid.series x (w.mem_of_slice d.series x member)

theorem check_slice (checked : d.check = .ok ()) (inside : w.last < d.length) :
    (d.slice w).check = .ok () :=
  (check_eq_ok _).mpr (((check_eq_ok d).mp checked).slice inside)

end Dataset

namespace Scale
variable {α : Type} [Scalar α]

theorem ladderRange_slice (ladders : Matrix α) (w : Window) :
    ladderRange (w.slice ladders) w.fromZero = ladderRange ladders w := by
  simp only [ladderRange, w.fromZero_slice]

theorem columnRange_slice (series : List α) (w : Window) (inside : w.last < series.length) :
    columnRange .linear (w.slice series) w.fromZero = columnRange .linear series w := by
  have last : w.fromZero.last < (w.slice series).length := by
    rw [w.length_slice series inside]
    exact Nat.lt_succ_self w.span
  simp only [columnRange, if_pos last, if_pos inside, w.fromZero_slice]

end Scale
end LadderChart
