import LadderChart.Proofs.Data.Valid
import LadderChart.Proofs.Engine.Frames

/-!
Refused calls. Data are checked, and a window is compared with the length of the series, before
anything is touched: a call that is refused there enters no hook, hands nothing over and leaves the
engine as it was. Data that pass their check are stored, whatever fails after that.
-/

namespace LadderChart.Engine
variable {σ ρ α : Type} [Scalar α]

structure Untouched (e : Engine σ ρ α) (c : Call α) (fault : Fault) : Prop where
  call : e.call c = ⟨e, some fault⟩
  visits : e.visits c = []
  frames : e.frames c = []

theorem refused_untouched (e : Engine σ ρ α) (c : Call α) (fault : Fault)
    (refused : e.refusal c = some fault) : e.Untouched c fault where
  call := by rw [call_eq, refused]
  visits := by rw [visits_eq, refused]
  frames := frames_refused e c fault refused

theorem refusal_data (e : Engine σ ρ α) (data : Dataset α) (fault : Fault)
    (invalid : data.check = .error fault) : e.refusal (.setData data) = some fault := by
  simp only [refusal, invalid]

theorem refusal_window (e : Engine σ ρ α) (first last : Nat)
    (outside : ¬ (first ≤ last ∧ last < e.scene.data.length)) :
    e.refusal (.setWindow first last) =
      some (.data (.windowOutside first last e.scene.data.length)) := by
  simp only [refusal, Window.make, dif_neg outside]

/-- The data after a call are those after its turn: no work that follows changes them. -/
theorem call_data (e : Engine σ ρ α) (c : Call α) (accepted : e.refusal c = none) :
    (e.call c).engine.scene.data = (e.turn c).scene.data := by
  have any : (e.turn c).Keeps fun _ => True := fun p _ => p.keeps_any
  rw [call_eq, accepted]
  exact (follow_works (e.turn c) any c).steady.data

theorem setData_stored (e : Engine σ ρ α) (data : Dataset α) (valid : data.check = .ok ()) :
    (e.call (.setData data)).engine.scene.data = data := by
  have accepted : e.refusal (.setData data) = none := by simp only [refusal, valid]
  rw [call_data e _ accepted, turn_data]

/-- Data pass the check exactly if they are valid. If they do not, or a window lies outside the
series, the call ends at that fault and nothing happened; if they do, they are stored. -/
theorem rejected_input_changes_nothing (e : Engine σ ρ α) :
    (∀ data : Dataset α,
      (data.check = .ok () ↔ data.Valid) ∧
      (∀ fault, data.check = .error fault → e.Untouched (.setData data) fault) ∧
      (data.check = .ok () → (e.call (.setData data)).engine.scene.data = data)) ∧
    ∀ first last, ¬ (first ≤ last ∧ last < e.scene.data.length) →
      e.Untouched (.setWindow first last)
        (.data (.windowOutside first last e.scene.data.length)) := by
  constructor
  · intro data
    refine ⟨data.check_eq_ok, ?_, setData_stored e data⟩
    intro fault invalid
    exact refused_untouched e _ fault (refusal_data e data fault invalid)
  · intro first last outside
    exact refused_untouched e _ _ (refusal_window e first last outside)

def lopsided : Dataset Float := .dense [1.0, 2.0] [[10.0], [20.0]] [[1.0]] ⟨0.0, 2.0⟩

/-- A column without weights, a window past the last column, and data that fit. -/
theorem lopsided_data_refused : ∃ e, twoColumnChart = .opened e ∧
    e.Untouched (.setData lopsided) (.shape (.weightCount 1 2)) ∧
    e.Untouched (.setWindow 1 2) (.data (.windowOutside 1 2 2)) ∧
    (e.call (.setData twoColumns)).engine.scene.data = twoColumns := by
  have evaluated : twoColumnChart.passes (fun e => e.scene.data.length == 2) = true := by
    decide +kernel
  obtain ⟨e, opened, test⟩ := (Opening.passes_iff _ _).mp evaluated
  have two : e.scene.data.length = 2 := by simpa using test
  obtain ⟨data, window⟩ := rejected_input_changes_nothing e
  refine ⟨e, opened, (data lopsided).2.1 _ rfl, ?_,
    (data twoColumns).2.2 rfl⟩
  have outside := window 1 2
  rw [two] at outside
  exact outside (by decide)

end LadderChart.Engine
