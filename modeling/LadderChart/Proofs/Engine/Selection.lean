import LadderChart.Proofs.Engine.Aim
import LadderChart.Proofs.Engine.Resolved

/-!
Drilling down at a pointer. The span of a column ends where the next one begins, so the spans of a
series in order tile the time from its first column to the end of its last, and the value that is
read off is drawn where the pointer is.
-/

namespace LadderChart

namespace Scene

/-! ### Spans of time -/

section Spans
variable {α : Type} [Scalar α] {series : List α} {index : Nat} {start next previous : α}

theorem spanEnd_next (found : series[index + 1]? = some next) :
    spanEnd series index start = next := by
  simp only [spanEnd, found]

theorem spanEnd_single (last : series[0 + 1]? = none) : spanEnd series 0 start = start := by
  simp only [spanEnd, last]

theorem spanEnd_last (last : series[index + 1 + 1]? = none) (found : series[index]? = some previous) :
    spanEnd series (index + 1) start = start + (start - previous) := by
  simp only [spanEnd, last, found]

end Spans

/-- A time in the span of a column; the end of a span is not in it. -/
def InSpan (series : List Rat) (index : Nat) (t : Rat) : Prop :=
  ∃ start, series[index]? = some start ∧ start ≤ t ∧ t < spanEnd series index start

section Sorted
variable {series : List Rat} (sorted : series.Pairwise (· ≤ ·))
include sorted

theorem sorted_at {i j : Nat} {x y : Rat} (le : i ≤ j) (first : series[i]? = some x)
    (second : series[j]? = some y) : x ≤ y := by
  obtain ⟨inside, rfl⟩ := List.getElem?_eq_some_iff.mp first
  obtain ⟨inside', rfl⟩ := List.getElem?_eq_some_iff.mp second
  rcases le.lt_or_eq with less | rfl
  · exact List.pairwise_iff_getElem.mp sorted i j inside inside' less
  · exact le_refl _

theorem le_spanEnd {index : Nat} {start : Rat} (found : series[index]? = some start) :
    start ≤ spanEnd series index start := by
  cases later : series[index + 1]? with
  | some next =>
      rw [spanEnd_next later]
      exact sorted_at sorted (Nat.le_succ index) found later
  | none =>
      cases index with
      | zero => rw [spanEnd_single later]
      | succ before =>
          obtain ⟨inside, _⟩ := List.getElem?_eq_some_iff.mp found
          have previous := List.getElem?_eq_getElem (Nat.lt_of_succ_lt inside)
          have order := sorted_at sorted (Nat.le_succ before) previous found
          rw [spanEnd_last later previous]
          linarith

theorem inSpan_unique {i j : Nat} {t : Rat} (here : InSpan series i t) (there : InSpan series j t) :
    i = j := by
  have apart : ∀ {i j : Nat}, InSpan series i t → InSpan series j t → ¬ i < j := by
    rintro i j ⟨x, _, _, before⟩ ⟨y, found, after, _⟩ less
    obtain ⟨inside, _⟩ := List.getElem?_eq_some_iff.mp found
    have next := List.getElem?_eq_getElem (Nat.lt_of_le_of_lt less inside)
    rw [spanEnd_next next] at before
    exact absurd ((sorted_at sorted less next found).trans after) (not_le.mpr before)
  have first := apart here there
  have second := apart there here
  omega

omit sorted in
/-- From a column on, every time before the end of the last span is in one of the spans. -/
theorem inSpan_from (rest i : Nat) {start last t : Rat} (found : series[i]? = some start)
    (ends : series[i + rest]? = some last) (none : series[i + rest + 1]? = none)
    (after : start ≤ t) (before : t < spanEnd series (i + rest) last) :
    ∃ j, InSpan series j t := by
  induction rest generalizing i start with
  | zero =>
      rw [Nat.add_zero, found, Option.some.injEq] at ends
      subst ends
      exact ⟨i, start, found, after, before⟩
  | succ rest ih =>
      obtain ⟨inside, _⟩ := List.getElem?_eq_some_iff.mp ends
      have next := List.getElem?_eq_getElem (show i + 1 < series.length by omega)
      rcases le_or_gt series[i + 1] t with later | here
      · have shift : i + 1 + rest = i + (rest + 1) := by omega
        exact ih (i + 1) next (shift ▸ ends) (shift ▸ none) later (shift ▸ before)
      · exact ⟨i, start, found, after, by rwa [spanEnd_next next]⟩

/-- The spans of a series tile the time from its first column to the end of its last span. -/
structure Tiles (series : List Rat) : Prop where
  unique : ∀ {i j : Nat} {t : Rat}, InSpan series i t → InSpan series j t → i = j
  covers : ∀ {first last t : Rat}, series[0]? = some first →
    series[series.length - 1]? = some last →
      ((∃ i, InSpan series i t) ↔ first ≤ t ∧ t < spanEnd series (series.length - 1) last)

theorem tiles : Tiles series where
  unique := inSpan_unique sorted
  covers := by
    intro first last t found ends
    constructor
    · rintro ⟨i, start, here, after, before⟩
      refine ⟨(sorted_at sorted (Nat.zero_le i) found here).trans after, ?_⟩
      obtain ⟨inside, _⟩ := List.getElem?_eq_some_iff.mp here
      by_cases at_end : i = series.length - 1
      · rw [at_end, ends, Option.some.injEq] at here
        rwa [at_end, ← here] at before
      · have next := List.getElem?_eq_getElem (show i + 1 < series.length by omega)
        rw [spanEnd_next next] at before
        have upTo := sorted_at sorted (show i + 1 ≤ series.length - 1 by omega) next ends
        exact before.trans_le (upTo.trans (le_spanEnd sorted ends))
    · rintro ⟨after, before⟩
      obtain ⟨inside, _⟩ := List.getElem?_eq_some_iff.mp found
      have ends' : series[0 + (series.length - 1)]? = some last := by rwa [Nat.zero_add]
      have none : series[0 + (series.length - 1) + 1]? = none := List.getElem?_eq_none (by omega)
      exact inSpan_from (series.length - 1) 0 found ends' none after (by rwa [Nat.zero_add])

end Sorted

/-! ### Drilling down -/

structure DrillsDown (s : Scene Rat) (x y : Rat) : Prop where
  somewhere : (s.select? x y).isSome = true ↔
    (s.indexAt? x y).isSome = true ∧ s.yScale.isDegenerate = false
  column : ∀ found, s.select? x y = some found →
    s.indexAt? x y = some found.index ∧ s.data.series[found.index]? = some found.start
  /-- Wherever the window ends, the span goes up to the next column of the series. -/
  next : ∀ found time, s.select? x y = some found →
    s.data.series[found.index + 1]? = some time → found.finish = time
  /-- The last column has the length of the span before it, and a single column has none. -/
  last : ∀ found, s.select? x y = some found → found.index + 1 = s.data.length →
    (found.index = 0 → found.finish = found.start) ∧
      ∀ before previous, found.index = before + 1 → s.data.series[before]? = some previous →
        found.finish - found.start = found.start - previous
  ordered : s.data.series.Pairwise (· ≤ ·) →
    Tiles s.data.series ∧ ∀ found, s.select? x y = some found → found.start ≤ found.finish ∧
      ∀ t, InSpan s.data.series found.index t ↔ found.start ≤ t ∧ t < found.finish
  value : ∀ found low high, s.select? x y = some found → s.yScale.range = some (low, high) →
    low < high → s.rungPixel? found.value = some (s.canvasY y) ∧
      (s.box.top ≤ s.canvasY y → s.canvasY y ≤ s.box.bottom →
        low ≤ found.value ∧ found.value ≤ high)

theorem select_eq_some {s : Scene Rat} {x y : Rat} {found : Selection Rat}
    (selected : s.select? x y = some found) : s.indexAt? x y = some found.index ∧
      s.data.series[found.index]? = some found.start ∧
      s.yScale.value? .y s.box (s.canvasY y) = some found.value ∧
      found.finish = spanEnd s.data.series found.index found.start := by
  unfold select? at selected
  split at selected
  · cases selected
  · rename_i index hit
    split at selected
    · rename_i start value column read
      cases selected
      exact ⟨hit, column, read, rfl⟩
    · cases selected

theorem value_isSome (scale : Scale Rat) (axis : Axis) (box : Box Rat) (pixel : Rat) :
    (scale.value? axis box pixel).isSome = true ↔ scale.isDegenerate = false := by
  unfold Scale.value? Scale.isDegenerate
  cases scale.range with
  | none => simp
  | some bounds => simp [Scalar.isFinite_rat, apply_ite Option.isSome]

theorem drills_down {s : Scene Rat} (fits : Window.Fits s.data.length s.window)
    (tall : 0 < s.box.height) (x y : Rat) : s.DrillsDown x y where
  somewhere := by
    rw [← value_isSome s.yScale .y s.box (s.canvasY y)]
    unfold select?
    cases hit : s.indexAt? x y with
    | none => simp
    | some index =>
        obtain ⟨w, shown, inside⟩ := s.indexAt_inside x y index hit
        rw [shown] at fits
        obtain ⟨_, upTo⟩ := (w.contains_iff index).mp inside
        have column := List.getElem?_eq_getElem (show index < s.data.series.length from
          upTo.trans_lt fits.2)
        simp only [column]
        cases s.yScale.value? .y s.box (s.canvasY y) <;> simp
  column := by
    intro found selected
    obtain ⟨hit, column, _⟩ := select_eq_some selected
    exact ⟨hit, column⟩
  next := by
    intro found time selected following
    obtain ⟨_, _, _, finish⟩ := select_eq_some selected
    rw [finish, spanEnd_next following]
  last := by
    -- the last span repeats the one before it, if there is one
    intro found selected ends
    obtain ⟨_, _, _, finish⟩ := select_eq_some selected
    have none : s.data.series[found.index + 1]? = none :=
      List.getElem?_eq_none (show s.data.length ≤ found.index + 1 by omega)
    constructor
    · intro first
      rw [first] at none finish
      rw [finish, spanEnd_single none]
    · intro before previous second there
      rw [second] at none finish
      rw [finish, spanEnd_last none there]
      ring
  ordered := by
    intro sorted
    refine ⟨tiles sorted, ?_⟩
    intro found selected
    obtain ⟨_, column, _, finish⟩ := select_eq_some selected
    rw [finish]
    refine ⟨le_spanEnd sorted column, ?_⟩
    intro t
    simp [InSpan, column]
  value := by
    intro found low high selected range spans
    obtain ⟨_, _, read, _⟩ := select_eq_some selected
    have scale : s.yScale = ⟨s.yScale.distribution, some (low, high)⟩ := by rw [← range]
    -- what is read off is drawn at the pointer again
    obtain ⟨value, read', drawn, same⟩ :=
      Scale.rung_drawn s.yScale.distribution s.box spans tall (s.canvasY y)
    rw [← scale, read, Option.some.injEq] at read'
    rw [← scale, ← read'] at drawn
    refine ⟨drawn, ?_⟩
    intro below above
    rw [read', same]
    exact Scale.rung_between s.box spans tall below above

end Scene

namespace Engine
variable {σ ρ : Type}

section Reachable
variable {backend : Backend ρ Rat} {screen : ρ} {config : Config σ Rat} {data : Dataset Rat}
  {e : Engine σ ρ Rat} (opened : openWith backend screen config data = .opened e)
  (calls : List (Call Rat))
include opened

/-- In every reachable engine a pointer drills down to the column under it, the time up to the next
column, and the value of the ladder axis at its height. -/
theorem selection_drills_down (x y : Rat) : (e.run calls).scene.DrillsDown x y :=
  Scene.drills_down (reach_basis_sound opened calls).window (reach_tall opened calls) x y

end Reachable

def steppedColumns : Dataset Rat :=
  .dense [1.0, 1.0, 4.0, 6.0] [[10.0, 30.0], [20.0], [30.0], [40.0]] [[1.0, 1.0], [2.0], [3.0], [4.0]]
    ⟨0.0, 4.0⟩

/-- At the right edge of a narrow window: the span goes up to the column behind the edge. -/
theorem stepped_columns_selected : ∃ e, openWith Recorder.backend .fresh (.standard .standard)
      steppedColumns = .opened e ∧
    ((e.run [.setWindow 0 2]).select? 1368.0 0.0).map (fun found =>
      (found.index, found.start, found.finish, found.value)) = some (2, 4, 6, 30) ∧
    (e.run [.setWindow 0 2]).scene.DrillsDown 1368.0 0.0 := by
  have evaluated : (openWith Recorder.backend .fresh (.standard .standard) steppedColumns).passes
      (fun e => decide (((e.run [.setWindow 0 2]).select? 1368.0 0.0).map (fun found =>
        (found.index, found.start, found.finish, found.value)) = some (2, 4, 6, 30))) = true := by
    decide +kernel
  obtain ⟨e, opened, test⟩ := (Opening.passes_iff _ _).mp evaluated
  exact ⟨e, opened, of_decide_eq_true test,
    selection_drills_down opened [.setWindow 0 2] 1368.0 0.0⟩

end Engine
end LadderChart
