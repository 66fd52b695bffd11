import LadderChart.Proofs.Engine.Aim
import LadderChart.Proofs.Engine.Scales

/-!
The crosshair and the pointer. They are stored apart and written by the same calls, before the first
hook, so no failure comes between the two; data and windows change neither. New lines are taken over
only if they differ, hence the lines that are stored are those at the pointer or compare equal to
them.
-/

namespace LadderChart

section Lines
variable {α : Type} [Scalar α]

/-- The same lines, or lines that compare equal field by field. -/
def Line.Alike (found wanted : List (Line α)) : Prop :=
  found = wanted ∨ List.Forall₂ (fun l m => l.agrees m = true) found wanted

theorem Line.agreeAll_iff (found wanted : List (Line α)) :
    agreeAll found wanted = true ↔ List.Forall₂ (fun l m => l.agrees m = true) found wanted := by
  induction found generalizing wanted with
  | nil => cases wanted <;> simp [agreeAll]
  | cons l rest ih => cases wanted <;> simp [agreeAll, ih]

theorem Line.alike_nil {found : List (Line α)} (alike : Alike found []) : found = [] := by
  rcases alike with same | compared
  · exact same
  · exact List.forall₂_nil_right_iff.mp compared

theorem PointerSurface.setCrosshair_alike (p : PointerSurface α) (lines : List (Line α)) :
    Line.Alike (p.setCrosshair lines).crosshair lines := by
  unfold setCrosshair
  split
  · rename_i compared
    exact .inr ((Line.agreeAll_iff _ _).mp compared)
  · exact .inl rfl

end Lines

namespace Scene
variable {α : Type} [Scalar α]

def upright (s : Scene α) (stroke : Color α) (x : α) : Line α :=
  ⟨s.canvasX x, s.box.top, s.canvasX x, s.box.bottom, s.pixelRatio, stroke⟩

def level (s : Scene α) (stroke : Color α) (y : α) : Line α :=
  ⟨s.box.left, s.canvasY y, s.box.right, s.canvasY y, s.pixelRatio, stroke⟩

end Scene

namespace Engine
variable {σ ρ α : Type} [Scalar α]

/-- The crosshair is the one that options and stored pointer ask for. -/
structure Crosses (e : Engine σ ρ α) : Prop where
  away : e.scene.cursor.pointer = none → e.surfaces.pointer.crosshair = []
  outside : ∀ x y, e.scene.cursor.pointer = some (x, y) →
    ¬ Hit.Within e.scene.box (e.scene.canvasX x) (e.scene.canvasY y) →
    e.surfaces.pointer.crosshair = []
  inside : ∀ x y, e.scene.cursor.pointer = some (x, y) →
    Hit.Within e.scene.box (e.scene.canvasX x) (e.scene.canvasY y) →
    Line.Alike e.surfaces.pointer.crosshair
      ((if e.options.crosshair.x then [e.scene.upright e.options.crosshair.stroke x] else []) ++
        if e.options.crosshair.y then [e.scene.level e.options.crosshair.stroke y] else [])

def wantedLines (e : Engine σ ρ α) : List (Line α) :=
  match e.scene.cursor.pointer with
  | none => []
  | some (x, y) => e.scene.crosshair e.options.crosshair x y

def Follows (e : Engine σ ρ α) : Prop := Line.Alike e.surfaces.pointer.crosshair e.wantedLines

variable {e e' : Engine σ ρ α}

/-- What the lines of a crosshair depend on. -/
structure SamePointer (e e' : Engine σ ρ α) : Prop where
  options : e'.options = e.options
  pixelRatio : e'.scene.pixelRatio = e.scene.pixelRatio
  box : e'.scene.box = e.scene.box
  pointer : e'.scene.cursor.pointer = e.scene.cursor.pointer
  crosshair : e'.surfaces.pointer.crosshair = e.surfaces.pointer.crosshair

theorem Follows.same (follows : e.Follows) (same : SamePointer e e') : e'.Follows := by
  have lines : ∀ x y, e'.scene.crosshair e'.options.crosshair x y =
      e.scene.crosshair e.options.crosshair x y := by
    intro x y
    have canvasX : e'.scene.canvasX x = e.scene.canvasX x := by
      rw [Scene.canvasX, Scene.canvasX, same.box, same.pixelRatio]
    have canvasY : e'.scene.canvasY y = e.scene.canvasY y := by
      rw [Scene.canvasY, Scene.canvasY, same.box, same.pixelRatio]
    rw [Scene.crosshair, Scene.crosshair, canvasX, canvasY, same.options, same.box,
      same.pixelRatio]
  unfold Follows wantedLines
  simp only [same.crosshair, same.pointer, lines]
  exact follows

theorem Follows.crosses (follows : e.Follows) : e.Crosses := by
  unfold Follows wantedLines at follows
  refine ⟨?_, ?_, ?_⟩
  · intro away
    rw [away] at follows
    exact Line.alike_nil follows
  · intro x y pointed outside
    have missed : ¬ Hit.inside e.scene.box (e.scene.canvasX x) (e.scene.canvasY y) = true :=
      fun inside => outside ((Hit.inside_iff _ _ _).mp inside)
    simp only [pointed, Scene.crosshair, if_neg missed] at follows
    exact Line.alike_nil follows
  · intro x y pointed within
    have inside := (Hit.inside_iff _ _ _).mpr within
    simp only [pointed, Scene.crosshair, if_pos inside] at follows
    exact follows

/-! ### Work and turns -/

omit [Scalar α] in
theorem accepted_crosshair (e : Engine σ ρ α) (answer : ρ × Option Fault) :
    (e.accepted answer).engine.surfaces.pointer.crosshair = e.surfaces.pointer.crosshair := by
  rcases accepted_cases e answer with ⟨_, _, same⟩ | ⟨_, _, same⟩
  · rw [same]
    rfl
  · rw [same]

theorem apply_crosshair (s : Surfaces α) (a : Action α) :
    (s.apply a).pointer.crosshair = s.pointer.crosshair := by
  cases a with
  | bind h =>
      simp only [Surfaces.apply, PointerSurface.bind]
      split <;> rfl
  | _ => rfl

theorem work_crosshair {may : Action α → Prop} (step : Work may e e') :
    e'.surfaces.pointer.crosshair = e.surfaces.pointer.crosshair := by
  cases step with
  | act a allowed => exact apply_crosshair e.surfaces a
  | paint => exact accepted_crosshair e _
  | repaint => exact accepted_crosshair e _
  | _ => rfl

theorem follows_work {may : Action α → Prop} (step : Work may e e') (follows : e.Follows) :
    e'.Follows := by
  have steady := step.steady
  exact follows.same ⟨steady.options, steady.pixelRatio, steady.box,
    congrArg (·.pointer) steady.cursor, work_crosshair step⟩

theorem follows_turn (follows : e.Follows) (c : Call α) : (e.turn c).Follows := by
  cases c with
  | enter => exact follows.same ⟨rfl, rfl, rfl, rfl, rfl⟩
  | move x y => exact PointerSurface.setCrosshair_alike _ _
  | leave => exact PointerSurface.setCrosshair_alike _ _
  | setData data => exact follows.same ⟨rfl, rfl, rfl, rfl, rfl⟩
  | setWindow first last =>
      simp only [turn]
      split
      · exact follows
      · exact follows.same ⟨rfl, rfl, rfl, rfl, rfl⟩
  | resetWindow =>
      simp only [turn]
      split
      · exact follows
      · exact follows.same ⟨rfl, rfl, rfl, rfl, rfl⟩
  | render => exact follows

/-! ### Reachable engines -/

/-- In every reachable engine, whatever its plugins do and whichever calls failed, the crosshair
follows the stored pointer: no line without a pointer or with one off the plot; else a line over the
full height and then one over the full width, as far as the options ask for them. -/
theorem crosshair_follows_pointer {backend : Backend ρ α} {screen : ρ} {config : Config σ α}
    {data : Dataset α} (opened : openWith backend screen config data = .opened e)
    (calls : List (Call α)) : (e.run calls).Crosses := by
  refine Follows.crosses (reach_keeps (P := Follows) opened (fun p _ => p.keeps_any) ?_
    (fun _ _ step follows => follows_work step follows) calls
    (fun c _ _ _ follows => follows_turn follows c))
  intro first start
  refine .inl ?_
  have away : first.scene.cursor.pointer = none := by
    rw [start.scene]
    rfl
  rw [wantedLines, away, start.surfaces]
  rfl

/-- The pointer is in the plot, and then an update stops at a hook that fails. -/
theorem narrow_crossed : ∃ e, narrowChart = .opened e ∧
    e.runFaults [.move 1300.0 100.0, .setData threeColumns] =
      [none, some (.plugin "narrow" .setCursor (.data (.other "too wide")))] ∧
    (e.run [.move 1300.0 100.0, .setData threeColumns]).scene.cursor.pointer =
      some (1300.0, 100.0) ∧
    (e.run [.move 1300.0 100.0, .setData threeColumns]).surfaces.pointer.crosshair.length = 2 ∧
    (e.run [.move 1300.0 100.0, .setData threeColumns]).Crosses := by
  have evaluated : narrowChart.passes (fun e =>
      let calls := [.move 1300.0 100.0, .setData threeColumns]
      decide (e.runFaults calls =
          [none, some (.plugin "narrow" .setCursor (.data (.other "too wide")))] ∧
        (e.run calls).scene.cursor.pointer = some (1300.0, 100.0) ∧
        (e.run calls).surfaces.pointer.crosshair.length = 2)) = true := by
    decide +kernel
  obtain ⟨e, opened, test⟩ := (Opening.passes_iff _ _).mp evaluated
  obtain ⟨faults, pointer, lines⟩ := of_decide_eq_true test
  exact ⟨e, opened, faults, pointer, lines, crosshair_follows_pointer opened _⟩

end Engine
end LadderChart
