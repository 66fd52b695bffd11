import LadderChart.Proofs.Engine.Reach

/-!
What an engine keeps for life: options, plugins, backend and the place of the plot. They are settled
as the engine is laid out, and the data that are shown passed their check whenever they came. So an
engine on other data is laid out alike.
-/

namespace LadderChart

/-- The plot is what the insets leave of the canvas, and it has a size. -/
theorem Box.ofViewport_eq_ok {α : Type} [Scalar α] {v : Viewport} {insets : Insets α} {ratio : α}
    {box : Box α} (laid : Box.ofViewport v insets ratio = .ok box) :
    v.check = .ok () ∧ insets.check = .ok () ∧
      box = ⟨insets.left * ratio, insets.top * ratio,
        ofWord v.width - insets.left * ratio - insets.right * ratio,
        ofWord v.height - insets.top * ratio - insets.bottom * ratio⟩ ∧
      ¬ box.width ≤ 0.0 ∧ ¬ box.height ≤ 0.0 := by
  simp only [Box.ofViewport, bind, Except.bind] at laid
  cases canvas : v.check with
  | error fault => simp [canvas] at laid
  | ok _ =>
      cases sides : insets.check with
      | error fault => simp [canvas, sides] at laid
      | ok _ =>
          simp only [canvas, sides] at laid
          split at laid
          · cases laid
          · rename_i large
            cases laid
            exact ⟨rfl, rfl, rfl, fun small => large (.inl small), fun small => large (.inr small)⟩

namespace Engine
variable {σ ρ α : Type}

structure SameSetting (e e' : Engine σ ρ α) : Prop where
  options : e'.options = e.options
  plugins : e'.plugins = e.plugins
  backend : e'.backend = e.backend
  viewport : e'.scene.viewport = e.scene.viewport
  pixelRatio : e'.scene.pixelRatio = e.scene.pixelRatio
  box : e'.scene.box = e.scene.box

theorem SameSetting.trans {e₁ e₂ e₃ : Engine σ ρ α} (a : SameSetting e₁ e₂)
    (b : SameSetting e₂ e₃) : SameSetting e₁ e₃ where
  options := b.options.trans a.options
  plugins := b.plugins.trans a.plugins
  backend := b.backend.trans a.backend
  viewport := b.viewport.trans a.viewport
  pixelRatio := b.pixelRatio.trans a.pixelRatio
  box := b.box.trans a.box

theorem Steady.setting {e e' : Engine σ ρ α} (steady : Steady e e') : SameSetting e e' :=
  ⟨steady.options, steady.plugins, steady.backend, steady.viewport, steady.pixelRatio, steady.box⟩

variable [Scalar α]

theorem turn_sameSetting (e : Engine σ ρ α) (c : Call α) : SameSetting e (e.turn c) := by
  obtain ⟨options, plugins, backend, _⟩ := turn_setting e c
  have scene : (e.turn c).scene.viewport = e.scene.viewport ∧
      (e.turn c).scene.pixelRatio = e.scene.pixelRatio ∧ (e.turn c).scene.box = e.scene.box := by
    cases c with
    | move x y =>
        simp only [turn, arrive]
        split <;> exact ⟨rfl, rfl, rfl⟩
    | setWindow first last =>
        simp only [turn]
        split <;> exact ⟨rfl, rfl, rfl⟩
    | resetWindow =>
        simp only [turn]
        split <;> exact ⟨rfl, rfl, rfl⟩
    | _ => exact ⟨rfl, rfl, rfl⟩
  exact ⟨options, plugins, backend, scene.1, scene.2.1, scene.2.2⟩

theorem call_sameSetting (e : Engine σ ρ α) (c : Call α) : SameSetting e (e.call c).engine := by
  have any : e.Keeps fun _ => True := fun p _ => p.keeps_any
  refine call_reaches (P := SameSetting e) e any c ?_ (fun _ => turn_sameSetting e c) ?_
  · intro _
    exact ⟨rfl, rfl, rfl, rfl, rfl, rfl⟩
  · intro e₁ e₂ step same
    exact same.trans step.steady.setting

section Reachable
variable {backend : Backend ρ α} {screen : ρ} {config : Config σ α} {data : Dataset α}
  {e : Engine σ ρ α} (opened : openWith backend screen config data = .opened e)
include opened

theorem reach_setting (calls : List (Call α)) :
    ∃ first, LaidOut backend screen config data first ∧ SameSetting first (e.run calls) := by
  obtain ⟨first, start, work, keeps⟩ := opened_works opened fun p _ => p.keeps_any
  refine ⟨first, start, ?_⟩
  refine run_keeps calls ?_ ?_ e keeps work.steady.setting
  · intro c _ e' _ same
    exact same.trans (turn_sameSetting e' c)
  · intro e₁ e₂ step same
    exact same.trans step.steady.setting

/-- The data of a reachable engine passed their check, whatever happened since. -/
theorem reach_checked (calls : List (Call α)) : (e.run calls).scene.data.check = .ok () := by
  refine reach_keeps (P := fun e => e.scene.data.check = .ok ()) opened
    (fun p _ => p.keeps_any) ?_ ?_ calls ?_
  · intro first start
    rw [start.scene]
    exact start.valid
  · intro e₁ e₂ step checked
    rw [step.steady.data]
    exact checked
  · intro c _ e' accepted checked
    exact turn_checked e' c accepted checked

end Reachable

/-! ### Other data -/

variable {backend : Backend ρ α} {screen : ρ} {config : Config σ α} {data : Dataset α}
  {first : Engine σ ρ α}

theorem LaidOut.sized {e : Engine σ ρ α} (start : LaidOut backend screen config data first)
    (setting : SameSetting first e) : e.scene.viewport = first.options.viewport ∧
      e.scene.pixelRatio = first.options.pixelRatio := by
  rw [setting.viewport, setting.pixelRatio, start.scene]
  exact ⟨rfl, rfl⟩

theorem start_eq (first : Engine σ ρ α) : first.start = match first.opening.fault with
    | some fault => .refused first.opening.engine.memory first.opening.engine.screen fault
    | none => .opened first.opening.engine := rfl

theorem openWith_laid (start : LaidOut backend screen config data first) :
    openWith backend screen config data = first.start := by
  have laid : layOut first.options data = .ok first.scene.box := by
    simp only [layOut, start.options, start.valid, start.box, bind, Except.bind]
  unfold openWith
  simp only [start.ids, start.opts, laid]
  congr 1
  simp only [← start.plugins, ← start.backend, ← start.screen, ← start.surfaces, ← start.scene]

/-- The engine before its first hook, if it were opened on other data. -/
def laidFor (first : Engine σ ρ α) (screen : ρ) (other : Dataset α) : Engine σ ρ α :=
  { first with scene := firstScene first.options first.scene.box other, screen := screen }

theorem LaidOut.other (start : LaidOut backend screen config data first) (screen' : ρ)
    (other : Dataset α) (valid : other.check = .ok ()) :
    LaidOut backend screen' config other (first.laidFor screen' other) :=
  ⟨start.ids, start.opts, start.options, valid, start.box, rfl, start.surfaces, start.plugins,
    start.backend, rfl⟩

/-- Options that opened an engine once are refused for the fault of the data only. -/
theorem LaidOut.refused (start : LaidOut backend screen config data first) (screen' : ρ)
    (other : Dataset α) (fault : Fault) (invalid : other.check = .error fault) :
    openWith backend screen' config other = .refused first.memory screen' fault := by
  have laid : layOut first.options other = .error fault := by
    simp only [layOut, start.options, invalid, bind, Except.bind]
  unfold openWith
  simp only [start.ids, start.opts, laid]

end Engine
end LadderChart
