import LadderChart.Proofs.Engine.Scales
import LadderChart.Proofs.Plot.Ranged
import LadderChart.Proofs.Standard.Rest

/-!
How the ranges of the axes are settled. A rule that is there decides, and what it answers counts if
its bounds are finite and in order; without a rule the data decide. Whether a scale is called
automatic makes no difference to that. The scales that are stored belong to the data and window of
the last full pass.
-/

namespace LadderChart

namespace Scale
variable {α : Type} [Scalar α]

/-- The range that the data ask for: columns spaced evenly go from the first to the last of the
window; else it is the extent of the series in the window, or of the rungs in it. -/
def Builtin (axis : Axis) (d : Distribution) (data : Dataset α) (w : Window)
    (range : Option (α × α)) : Prop :=
  match axis, d with
  | .x, .ordinal => range = some (Scalar.ofNat w.first, Scalar.ofNat w.last)
  | .x, .linear => Extent.Spans (w.slice data.series) range
  | .y, _ => Extent.Spans ((w.slice data.ladders).filterMap id).flatten range

/-- The scale of an axis for some data and a window. -/
structure Resolves (s : ScaleOptions α) (axis : Axis) (b : Basis α) (scale : Scale α) : Prop where
  distribution : scale.distribution = s.distribution
  /-- Without columns there is no range. -/
  empty : b.data.length = 0 → scale.range = none
  /-- A rule decides, whether the scale is automatic or not. -/
  ruled : ∀ rule w, s.rule = some rule → b.window = some w → ∀ low high,
    scale.range = some (low, high) ↔ rule b.data w = some (low, high) ∧
      Scalar.isFinite low = true ∧ Scalar.isFinite high = true ∧ low ≤ high
  builtin : ∀ w, s.rule = none → b.window = some w → Builtin axis s.distribution b.data w scale.range

theorem builtinRange_builtin [Scalar.Ordered α] (axis : Axis) (d : Distribution) {data : Dataset α}
    {w : Window} (valid : data.Valid) (inside : w.last < data.length) :
    Builtin axis d data w (builtinRange axis d data w) := by
  have numbers : ∀ x ∈ w.slice data.series, Scalar.isNaN x = false := fun x there =>
    Scalar.Ordered.number_of_finite (valid.series x (w.mem_of_slice _ x there))
  have rungs : ∀ x ∈ ((w.slice data.ladders).filterMap id).flatten, Scalar.isNaN x = false :=
    fun x there => Scalar.Ordered.number_of_finite (valid.shown_rungs w x there)
  cases axis with
  | x =>
      cases d with
      | ordinal => rfl
      | linear =>
          simp only [builtinRange, columnRange, if_pos (show w.last < data.series.length from inside)]
          exact Extent.of_spans _ numbers
  | y => exact Extent.of_spans _ rungs

end Scale

theorem Extent.proper_iff {α : Type} [Scalar α] [Scalar.Strict α] (range : Option (α × α))
    (low high : α) : proper range = some (low, high) ↔ range = some (low, high) ∧
      Scalar.isFinite low = true ∧ Scalar.isFinite high = true ∧ low ≤ high := by
  constructor
  · intro counts
    have good := proper_proper range
    rw [counts] at good
    exact ⟨proper_some counts, good⟩
  · rintro ⟨rfl, good⟩
    exact proper_self good

structure Basis.Sound {α : Type} [Scalar α] (b : Basis α) : Prop where
  data : b.data.check = .ok ()
  window : Window.Fits b.data.length b.window

def Scene.scale {α : Type} (s : Scene α) : Axis → Scale α
  | .x => s.xScale
  | .y => s.yScale

theorem Scene.ScaledOn.scale {α : Type} [Scalar α] {s : Scene α} {o : Options α} {b : Basis α}
    (scaled : s.ScaledOn o b) (axis : Axis) :
    s.scale axis = Engine.resolveAxis o b.data b.window axis := by
  cases axis with
  | x => exact scaled.x
  | y => exact scaled.y

namespace Engine
variable {σ ρ α : Type} [Scalar α]

theorem resolveAxis_resolves [Scalar.Strict α] {o : Options α} {axis : Axis} {s : ScaleOptions α}
    (declared : o.scales.get? axis.key = some s) {b : Basis α} (sound : b.Sound) :
    Scale.Resolves s axis b (resolveAxis o b.data b.window axis) := by
  have valid := (Dataset.check_eq_ok b.data).mp sound.data
  have fits := sound.window
  constructor
  · simp only [resolveAxis, declared]
    cases b.window with
    | none => rfl
    | some w => cases s.rule <;> rfl
  · intro empty
    cases shown : b.window with
    | none => simp only [resolveAxis, declared, Scale.degenerate]
    | some w =>
        rw [shown] at fits
        exact absurd (empty ▸ fits.2) (Nat.not_lt_zero _)
  · intro rule w ruled shown low high
    simp only [resolveAxis, declared, shown, ruled]
    exact Extent.proper_iff _ low high
  · intro w ruled shown
    rw [shown] at fits
    simp only [resolveAxis, declared, shown, ruled]
    exact Scale.builtinRange_builtin axis s.distribution valid fits.2

/-! ### What the scales belong to -/

variable {e : Engine σ ρ α} {b : Basis α}

theorem turn_basis_sound (e : Engine σ ρ α) (c : Call α) (accepted : e.refusal c = none)
    (sound : e.scene.basis.Sound) : (e.turn c).scene.basis.Sound :=
  ⟨turn_checked e c accepted sound.data, turn_fits e c accepted sound.window⟩

theorem call_basis_sound (sound : e.scene.basis.Sound) (c : Call α) :
    (e.call c).engine.scene.basis.Sound := by
  have any : e.Keeps fun _ => True := fun p _ => p.keeps_any
  refine call_reaches (P := fun e' => e'.scene.basis.Sound) e any c (fun _ => sound)
    (fun accepted => turn_basis_sound e c accepted sound) ?_
  intro e₁ e₂ step before
  have same : e₂.scene.basis = e₁.scene.basis := by
    rw [Scene.basis, Scene.basis, step.steady.data, step.steady.window]
  rw [same]
  exact before

theorem run_basis_sound (sound : e.scene.basis.Sound) (calls : List (Call α)) :
    (e.run calls).scene.basis.Sound := by
  induction calls generalizing e with
  | nil => exact sound
  | cons c rest ih => exact ih (call_basis_sound sound c)

theorem settled_sound (here : e.scene.basis.Sound) (sound : b.Sound) (c : Call α) :
    (e.settled b c).Sound := by
  unfold settled
  split
  · rename_i passed
    have accepted : e.refusal c = none := by
      simp only [settles, Bool.and_eq_true, Option.isNone_iff_eq_none] at passed
      exact passed.1
    exact turn_basis_sound e c accepted here
  · exact sound

theorem runSettled_sound (here : e.scene.basis.Sound) (sound : b.Sound) (calls : List (Call α)) :
    (e.runSettled b calls).Sound := by
  induction calls generalizing e b with
  | nil => exact sound
  | cons c rest ih => exact ih (call_basis_sound here c) (settled_sound here sound c)

/-! ### Reachable engines -/

section Reachable
variable {backend : Backend ρ α} {screen : ρ} {config : Config σ α} {data : Dataset α}

theorem LaidOut.basis_sound {first : Engine σ ρ α}
    (start : LaidOut backend screen config data first) : first.scene.basis.Sound := by
  have laid : first.scene.basis = ⟨data, Window.full? data.length⟩ := by
    rw [start.scene]
    rfl
  rw [laid]
  exact ⟨start.valid, Window.full_fits _⟩

variable (opened : openWith backend screen config data = .opened e)
include opened

theorem opened_basis_sound : e.scene.basis.Sound := by
  obtain ⟨first, start, done⟩ := opened_cases opened
  have basis : e.scene.basis = first.scene.basis := by
    rw [(opened_scaled done).2]
    rfl
  rw [basis]
  exact start.basis_sound

/-- Whatever was called, the data are valid and the window fits them. -/
theorem reach_basis_sound (calls : List (Call α)) : (e.run calls).scene.basis.Sound :=
  run_basis_sound (opened_basis_sound opened) calls

/-- In every reachable engine both axes are declared, and a scale that is not automatic has a rule.
The ranges are settled by the rule if there is one and by the data otherwise, from the data and
window of the last full pass, which are those of the moment unless an update stalled since then. -/
theorem axes_resolved [Scalar.Strict α] (calls : List (Call α)) (axis : Axis) :
    ∃ s, (e.run calls).options.scales.get? axis.key = some s ∧
      (s.auto = false → s.rule.isSome = true) ∧ (e.runSettled e.scene.basis calls).Sound ∧
      Scale.Resolves s axis (e.runSettled e.scene.basis calls) ((e.run calls).scene.scale axis) ∧
      (e.runStalled false calls = false →
        e.runSettled e.scene.basis calls = (e.run calls).scene.basis) := by
  obtain ⟨first, start, done⟩ := opened_cases opened
  obtain ⟨options, scene⟩ := opened_scaled done
  have here := opened_basis_sound opened
  have fresh : e.scene.ScaledOn e.options e.scene.basis := by
    rw [scene, options]
    exact resolve_scaled first
  obtain ⟨same, scaled⟩ := run_scaled fresh calls
  obtain ⟨s, declared, automatic⟩ := first.options.check_scale start.options axis
  rw [← options] at declared
  have sound := runSettled_sound here here calls
  refine ⟨s, ?_, ?_, sound, ?_, runSettled_basis (fun _ => rfl) calls⟩
  · rw [same]
    exact declared
  · intro manual
    rcases automatic with auto | ruled
    · rw [auto] at manual
      cases manual
    · exact ruled
  · rw [scaled.scale axis]
    exact resolveAxis_resolves declared sound

end Reachable

def hundred : RangeRule Float := fun _ _ => some (0.0, 100.0)

/-- The axis of the columns is automatic, and has a rule as well. -/
def ruledChart : Opening Band (Recorder Float) Float :=
  openWith Recorder.backend .fresh
    (.standard (Options.standard.setScale Axis.x.key ⟨true, .linear, true, some hundred⟩)) twoColumns

/-- The rule decides, on the last column as well. -/
theorem ruled_axis_resolved : ∃ e, ruledChart = .opened e ∧
    (e.run [.setWindow 1 1]).scene.window = some ⟨1, 1, le_refl 1⟩ ∧
    (e.run [.setWindow 1 1]).scene.xScale.range = some (0.0, 100.0) := by
  have evaluated : ruledChart.passes (fun e => !e.runStalled false [.setWindow 1 1] &&
      decide ((e.run [.setWindow 1 1]).scene.window = some ⟨1, 1, le_refl 1⟩)) = true := by
    decide +kernel
  obtain ⟨e, opened, test⟩ := (Opening.passes_iff _ _).mp evaluated
  simp only [Bool.and_eq_true, Bool.not_eq_true', decide_eq_true_eq] at test
  obtain ⟨s, declared, _, _, resolved, current⟩ := axes_resolved opened [.setWindow 1 1] .x
  rw [(reach_standing opened _).options] at declared
  cases declared
  have shown := (congrArg (·.window) (current test.1)).trans test.2
  exact ⟨e, opened, test.2, (resolved.ruled hundred _ rfl shown 0.0 100.0).mpr ⟨rfl, by decide⟩⟩

def needy : Script Float := ⟨"needy", [], [], [.failLength (.data (.other "no columns")) 0], []⟩

def needyChart : Opening (Desk Float) (Recorder Float) Float :=
  openWith Recorder.backend .fresh ⟨.standard, [needy.plugin], .fresh 0⟩ twoColumns

def noColumns : Dataset Float := .dense [] [] [] ⟨0.0, 2.0⟩

/-- An automatic axis does not show the range of its data if it has a rule, and a series that was
emptied has ranges still if the update stalled. -/
theorem ruled_axis_not_builtin :
    (∃ e s, ruledChart = .opened e ∧ e.options.scales.get? Axis.x.key = some s ∧ s.auto = true ∧
      e.scene.window = some ⟨0, 1, Nat.zero_le 1⟩ ∧
      ¬ Scale.Builtin .x s.distribution e.scene.data ⟨0, 1, Nat.zero_le 1⟩
        e.scene.xScale.range) ∧
    ∃ e, needyChart = .opened e ∧ (e.run [.setData noColumns]).scene.data.length = 0 ∧
      (e.run [.setData noColumns]).scene.xScale.isDegenerate = false ∧
      (e.run [.setData noColumns]).scene.yScale.isDegenerate = false := by
  constructor
  · have evaluated : ruledChart.passes (fun e =>
        decide (e.scene.window = some ⟨0, 1, Nat.zero_le 1⟩ ∧ e.scene.data = twoColumns ∧
          e.scene.xScale.range = some (0.0, 100.0))) = true := by decide +kernel
    obtain ⟨e, opened, test⟩ := (Opening.passes_iff _ _).mp evaluated
    obtain ⟨shown, data, range⟩ := of_decide_eq_true test
    refine ⟨e, ⟨true, .linear, true, some hundred⟩, opened, ?_, rfl, shown, ?_⟩
    · rw [(opened_standing opened).options]
      rfl
    · rw [data, range]
      intro spans
      have member : (0.0 : Float) ∈ [1.0, 2.0] := spans.1
      rcases List.mem_pair.mp member with same | same
      · exact absurd same (by decide)
      · exact absurd same (by decide)
  · have evaluated : needyChart.passes (fun e =>
        let reached := e.run [.setData noColumns]
        decide (reached.scene.data.length = 0 ∧ reached.scene.xScale.isDegenerate = false ∧
          reached.scene.yScale.isDegenerate = false)) = true := by decide +kernel
    obtain ⟨e, opened, test⟩ := (Opening.passes_iff _ _).mp evaluated
    exact ⟨e, opened, of_decide_eq_true test⟩

end Engine
end LadderChart
