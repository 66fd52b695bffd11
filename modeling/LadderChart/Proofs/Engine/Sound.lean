import LadderChart.Proofs.Engine.Hit
import LadderChart.Proofs.Engine.Reach
import LadderChart.Proofs.Overlay.Elements
import LadderChart.Proofs.Plot.Range

/-!
Every reachable engine is sound, also after calls that failed half way. Turns and steps of work keep
soundness one by one, so it does not matter where a call stopped. Lengths are words of 64 bits, as
everywhere; a longer series would not have finite bounds as an axis.
-/

namespace LadderChart

/-- Only an empty series has no window; a window is in order and inside the series. -/
def Window.Fits (length : Nat) : Option Window → Prop
  | none => length = 0
  | some w => w.first ≤ w.last ∧ w.last < length

theorem Window.full_fits (length : Nat) : Window.Fits length (Window.full? length) := by
  cases length with
  | zero => rfl
  | succ n => exact ⟨Nat.zero_le n, Nat.lt_succ_self n⟩

theorem Window.make_fits (first last length : Nat) (w : Window)
    (made : Window.make first last length = .ok w) : Window.Fits length (some w) := by
  unfold make at made
  split at made
  · rename_i checked
    cases made
    exact checked
  · cases made

namespace Engine
variable {σ ρ α : Type} [Scalar α]

structure Sound (e : Engine σ ρ α) : Prop where
  options : e.options.check = .ok ()
  data : e.scene.data.check = .ok ()
  window : Window.Fits e.scene.data.length e.scene.window
  /-- A hovered column is in the window, under a pointer that is over the plot. -/
  cursor : ∀ index, e.scene.cursor.index = some index →
    (∃ w, e.scene.window = some w ∧ w.contains index = true) ∧
      e.surfaces.pointer.hovered = true ∧ ∃ position, e.scene.cursor.pointer = some position
  xRange : Extent.Proper e.scene.xScale.range
  yRange : Extent.Proper e.scene.yScale.range
  bindings : e.surfaces.pointer.bindings.Nodup

/-! ### Work -/

theorem Sound.carry {e e' : Engine σ ρ α} (sound : Sound e) (steady : Steady e e')
    (xRange : Extent.Proper e'.scene.xScale.range) (yRange : Extent.Proper e'.scene.yScale.range)
    (bindings : e'.surfaces.pointer.bindings.Nodup) : Sound e' where
  options := by rw [steady.options]; exact sound.options
  data := by rw [steady.data]; exact sound.data
  window := by rw [steady.data, steady.window]; exact sound.window
  cursor := by rw [steady.cursor, steady.window, steady.hovered]; exact sound.cursor
  xRange := xRange
  yRange := yRange
  bindings := bindings

theorem apply_nodup (s : Surfaces α) (a : Action α) (distinct : s.pointer.bindings.Nodup) :
    (s.apply a).pointer.bindings.Nodup := by
  cases a with
  | bind h => exact s.pointer.bind_nodup h distinct
  | _ => exact distinct

omit [Scalar α] in
theorem accepted_bindings (e : Engine σ ρ α) (answer : ρ × Option Fault) :
    (e.accepted answer).engine.surfaces.pointer.bindings = e.surfaces.pointer.bindings := by
  rcases accepted_cases e answer with ⟨_, _, same⟩ | ⟨_, _, same⟩
  · rw [same]
    rfl
  · rw [same]

theorem Sound.accepted {e : Engine σ ρ α} (sound : Sound e) (answer : ρ × Option Fault) :
    Sound (e.accepted answer).engine := by
  apply sound.carry (accepted_steady e answer)
  · rw [accepted_scene]
    exact sound.xRange
  · rw [accepted_scene]
    exact sound.yRange
  · rw [accepted_bindings]
    exact sound.bindings

theorem Sound.window_inside {e : Engine σ ρ α} (sound : Sound e) (w : Window)
    (shown : e.scene.window = some w) : w.last < e.scene.data.length := by
  have fits := sound.window
  rw [shown] at fits
  exact fits.2

theorem sound_work [Scalar.Ordered α] {may : Action α → Prop} {e e' : Engine σ ρ α}
    (step : Work may e e') (words : e.scene.data.length ≤ Scalar.largestIndex) (sound : Sound e) :
    Sound e' := by
  have steady := step.steady
  cases step with
  | remember memory => exact sound.carry steady sound.xRange sound.yRange sound.bindings
  | act a allowed =>
      exact sound.carry steady sound.xRange sound.yRange
        (apply_nodup e.surfaces a sound.bindings)
  | settle => exact sound.carry steady sound.xRange sound.yRange sound.bindings
  | resolve =>
      -- the one step that makes new ranges; the data were checked when they came
      have valid := (Dataset.check_eq_ok e.scene.data).mp sound.data
      have proper := fun axis => resolveAxis_proper e.options e.scene.data e.scene.window axis valid
        sound.window_inside words
      exact sound.carry steady (proper .x) (proper .y) sound.bindings
  | axes => exact sound.carry steady sound.xRange sound.yRange sound.bindings
  | paint => exact sound.accepted _
  | repaint => exact sound.accepted _

/-! ### Turns -/

theorem Sound.turned {e : Engine σ ρ α} (sound : Sound e) (c : Call α)
    (data : (e.turn c).scene.data.check = .ok ())
    (window : Window.Fits (e.turn c).scene.data.length (e.turn c).scene.window)
    (cursor : ∀ index, (e.turn c).scene.cursor.index = some index →
      (∃ w, (e.turn c).scene.window = some w ∧ w.contains index = true) ∧
        (e.turn c).surfaces.pointer.hovered = true ∧
          ∃ position, (e.turn c).scene.cursor.pointer = some position) : Sound (e.turn c) where
  options := by rw [(turn_setting e c).1]; exact sound.options
  data := data
  window := window
  cursor := cursor
  xRange := by rw [(turn_ranges e c).1]; exact sound.xRange
  yRange := by rw [(turn_ranges e c).2.1]; exact sound.yRange
  bindings := by rw [(turn_ranges e c).2.2]; exact sound.bindings

theorem turn_fits (e : Engine σ ρ α) (c : Call α) (accepted : e.refusal c = none)
    (fits : Window.Fits e.scene.data.length e.scene.window) :
    Window.Fits (e.turn c).scene.data.length (e.turn c).scene.window := by
  cases c with
  | move x y =>
      rw [(turn_move e x y).1]
      exact fits
  | setData data => exact Window.full_fits _
  | setWindow first last =>
      obtain ⟨w, made, same⟩ := window_look e first last accepted
      rw [same]
      exact Window.make_fits first last _ w made
  | resetWindow =>
      have whole := Window.full_fits e.scene.data.length
      simp only [turn]
      cases full : Window.full? e.scene.data.length with
      | none => exact fits
      | some w =>
          rw [full] at whole
          exact whole
  | _ => exact fits

theorem sound_turn {e : Engine σ ρ α} (sound : Sound e) (c : Call α)
    (accepted : e.refusal c = none) : Sound (e.turn c) := by
  refine sound.turned c (turn_checked e c accepted sound.data)
    (turn_fits e c accepted sound.window) ?_
  intro index hovered
  cases c with
  | enter =>
      obtain ⟨inside, _, position⟩ := sound.cursor index hovered
      exact ⟨inside, rfl, position⟩
  | move x y =>
      obtain ⟨scene, _, beneath⟩ := turn_move e x y
      rw [scene] at hovered ⊢
      exact ⟨e.scene.indexAt_inside x y index hovered, beneath, (x, y), rfl⟩
  | leave => cases hovered
  | setData data => cases hovered
  | setWindow first last =>
      obtain ⟨w, _, same⟩ := window_look e first last accepted
      rw [same] at hovered
      cases hovered
  | resetWindow =>
      rcases reset_cases e with ⟨_, same⟩ | ⟨_, w, same⟩
      · rw [same] at hovered ⊢
        exact sound.cursor index hovered
      · rw [same] at hovered
        cases hovered
  | render => exact sound.cursor index hovered

/-! ### Reachable engines -/

theorem first_sound {backend : Backend ρ α} {screen : ρ} {config : Config σ α} {data : Dataset α}
    {first : Engine σ ρ α} (start : LaidOut backend screen config data first) : Sound first := by
  have scene := start.scene
  constructor
  · exact start.options
  · rw [scene]
    exact start.valid
  · rw [scene]
    exact Window.full_fits data.length
  · rw [scene]
    intro index there
    cases there
  · rw [scene]
    trivial
  · rw [scene]
    trivial
  · rw [start.surfaces]
    exact List.nodup_nil

theorem turn_words (e : Engine σ ρ α) (c : Call α)
    (fits : ∀ data, c = .setData data → data.length ≤ Scalar.largestIndex)
    (words : e.scene.data.length ≤ Scalar.largestIndex) :
    (e.turn c).scene.data.length ≤ Scalar.largestIndex := by
  rw [turn_data]
  cases c with
  | setData data => exact fits data rfl
  | _ => exact words

section Reach
variable [Scalar.Ordered α] {backend : Backend ρ α} {screen : ρ} {config : Config σ α}
  {data : Dataset α} {e : Engine σ ρ α}

theorem reach_sound_words (opened : openWith backend screen config data = .opened e)
    (words : data.length ≤ Scalar.largestIndex) (calls : List (Call α))
    (fits : ∀ data, Call.setData data ∈ calls → data.length ≤ Scalar.largestIndex) :
    Sound (e.run calls) ∧ (e.run calls).scene.data.length ≤ Scalar.largestIndex := by
  refine reach_keeps
    (P := fun e => Sound e ∧ e.scene.data.length ≤ Scalar.largestIndex) opened
    (fun p _ => p.keeps_any) ?_ ?_ calls ?_
  · intro first start
    refine ⟨first_sound start, ?_⟩
    rw [start.scene]
    exact words
  · intro e₁ e₂ step before
    refine ⟨sound_work step before.2 before.1, ?_⟩
    rw [step.steady.data]
    exact before.2
  · intro c member e' accepted before
    refine ⟨sound_turn before.1 c accepted, turn_words e' c ?_ before.2⟩
    intro data same
    exact fits data (same ▸ member)

theorem reach_sound (opened : openWith backend screen config data = .opened e)
    (words : data.length ≤ Scalar.largestIndex) (calls : List (Call α))
    (fits : ∀ data, Call.setData data ∈ calls → data.length ≤ Scalar.largestIndex) :
    Sound (e.run calls) :=
  (reach_sound_words opened words calls fits).1

end Reach

/-- An engine over doubles is sound whatever was called, also after calls that failed: options and
data pass their checks, the window fits the data, a hovered column is in it and under the pointer,
ranges are finite and in order, and no element is bound twice. -/
theorem reachable_engine_sound {backend : Backend ρ Float} {screen : ρ} {config : Config σ Float}
    {data : Dataset Float} {e : Engine σ ρ Float}
    (opened : openWith backend screen config data = .opened e)
    (words : data.length ≤ Scalar.largestIndex) (calls : List (Call Float))
    (fits : ∀ data, Call.setData data ∈ calls → data.length ≤ Scalar.largestIndex) :
    Sound (e.run calls) :=
  reach_sound opened words calls fits

/-- The pointer over the second column, other data, and a window that cannot be. -/
theorem two_columns_sound : ∃ e, twoColumnChart = .opened e ∧
    Sound (e.run
      [.move 1300.0 100.0, .setData twoColumns, .setWindow 1 2, .move 1300.0 100.0]) := by
  have evaluated : twoColumnChart.passes (fun _ => true) = true := by decide +kernel
  obtain ⟨e, opened, _⟩ := (Opening.passes_iff _ _).mp evaluated
  have short : twoColumns.length ≤ Scalar.largestIndex := by decide
  refine ⟨e, opened, reachable_engine_sound opened short _ ?_⟩
  intro data member
  simp only [List.mem_cons, Call.setData.injEq, reduceCtorEq, false_or, or_false, List.not_mem_nil]
    at member
  rw [member]
  exact short

end Engine
end LadderChart
