import LadderChart.Chart.Options
import LadderChart.Proofs.Data.Valid

/-!
What the check of options says about scales: both axes have one, and it says where its range comes
from.
-/

namespace LadderChart.Options
variable {α : Type} [Scalar α]

omit [Scalar α] in
theorem checkScale_eq_ok (o : Options α) (axis : Axis) : o.checkScale axis = .ok () ↔
    ∃ s, o.scales.get? axis.key = some s ∧ (s.auto = true ∨ s.rule.isSome = true) := by
  unfold checkScale
  cases o.scales.get? axis.key with
  | none => simp
  | some s => cases automatic : s.auto <;> cases s.rule <;> simp [refuseIf_eq_ok, automatic]

theorem check_scale {o : Options α} (checked : o.check = .ok ()) (axis : Axis) :
    ∃ s, o.scales.get? axis.key = some s ∧ (s.auto = true ∨ s.rule.isSome = true) := by
  rw [← checkScale_eq_ok]
  unfold check at checked
  simp only [] at checked
  rw [throwIf_eq_ok] at checked
  simp only [both_eq_ok] at checked
  obtain ⟨_, _, _, _, _, x, y, _⟩ := checked
  cases axis with
  | x => exact x
  | y => exact y

end LadderChart.Options
