import LadderChart.Engine.Pointer

/-!
The hit test answers with a column of the window.
-/

namespace LadderChart

theorem Window.clamp_contains (w : Window) (index : Nat) : w.contains (w.clamp index) = true := by
  have ordered := w.ordered
  rw [← w.mem_indices]
  simp only [indices, size, span, clamp, List.mem_range'_1]
  omega

namespace Hit
variable {α : Type} [Scalar α]

theorem nearest_mem {τ : Type} (distance : τ → α) (candidates : List τ) (best : τ)
    (found : nearest? distance candidates = some best) : best ∈ candidates := by
  induction candidates generalizing best with
  | nil => cases found
  | cons x rest ih =>
      simp only [nearest?] at found
      cases later : nearest? distance rest with
      | none =>
          simp only [later, Option.some.injEq] at found
          rw [← found]
          exact List.mem_cons_self
      | some other =>
          simp only [later] at found
          split at found
          · rw [← Option.some.inj found]
            exact List.mem_cons_of_mem x (ih other later)
          · rw [← Option.some.inj found]
            exact List.mem_cons_self

theorem column_contains (d : Distribution) (series : List α) (w : Window) (value : α) (index : Nat)
    (found : column? d series w value = some index) : w.contains index = true := by
  cases d with
  | ordinal =>
      simp only [column?, Option.some.injEq] at found
      rw [← found]
      exact w.clamp_contains _
  | linear =>
      simp only [column?, Option.map_eq_some_iff] at found
      obtain ⟨column, nearest, same⟩ := found
      have member : column.1 ∈ w.indices := (List.of_mem_zip (nearest_mem _ _ column nearest)).1
      rw [← same]
      exact (w.mem_indices _).mp member

end Hit

theorem Scene.indexAt_inside {α : Type} [Scalar α] (s : Scene α) (x y : α) (index : Nat)
    (found : s.indexAt? x y = some index) :
    ∃ w, s.window = some w ∧ w.contains index = true := by
  unfold indexAt? at found
  cases shown : s.window with
  | none => simp [shown] at found
  | some w =>
      simp only [shown] at found
      split at found
      · obtain ⟨value, _, hit⟩ := Option.bind_eq_some_iff.mp found
        exact ⟨w, rfl, Hit.column_contains _ _ w value index hit⟩
      · cases found

end LadderChart
