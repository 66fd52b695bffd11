import Mathlib.Logic.Relation
import LadderChart.Engine.Call

/-!
A call in parts. It may be refused; else it takes its turn, a change of its own that no plugin and
no backend can stop, and then follows work: hooks act, scales are resolved, axes drawn, frames
handed over. Work can end at a fault after any of its steps, so what every step of work keeps is
kept by every call, whether it fails or not.
-/

namespace LadderChart

/-- The hook body takes only actions of some kind. -/
def HookBody.Keeps {σ α : Type} (may : Action α → Prop) (body : HookBody σ α) : Prop :=
  ∀ memory scene surfaces, ∀ a ∈ (body memory scene surfaces).actions, may a

structure Plugin.Keeps {σ α : Type} (may : Action α → Prop) (p : Plugin σ α) : Prop where
  init : p.init.Keeps may
  setCursor : p.setCursor.Keeps may
  draw : p.draw.Keeps may

theorem Plugin.keeps_any {σ α : Type} (p : Plugin σ α) : p.Keeps fun _ => True :=
  ⟨fun _ _ _ _ _ => trivial, fun _ _ _ _ _ => trivial, fun _ _ _ _ _ => trivial⟩

namespace Engine
variable {σ ρ α : Type} [Scalar α]

/-! ### Turns -/

def load (e : Engine σ ρ α) (data : Dataset α) : Engine σ ρ α :=
  { e with scene := { e.scene with
      data := data
      window := Window.full? data.length
      cursor := ⟨none, e.scene.cursor.pointer⟩ } }

def look (e : Engine σ ρ α) (w : Window) : Engine σ ρ α :=
  { e with scene := { e.scene with window := some w, cursor := ⟨none, e.scene.cursor.pointer⟩ } }

def arrive (e : Engine σ ρ α) : Engine σ ρ α :=
  if e.surfaces.pointer.hovered then e else e.hover true

def point (e : Engine σ ρ α) (x y : α) : Engine σ ρ α :=
  (e.setCursor ⟨e.indexAt? x y, some (x, y)⟩).setCrosshair
    (e.scene.crosshair e.options.crosshair x y)

def depart (e : Engine σ ρ α) : Engine σ ρ α := ((e.setCursor .away).hover false).setCrosshair []

def turn (e : Engine σ ρ α) : Call α → Engine σ ρ α
  | .enter => e.hover true
  | .move x y => e.arrive.point x y
  | .leave => e.depart
  | .setData data => e.load data
  | .setWindow first last =>
      match Window.make first last e.scene.data.length with
      | .error _ => e
      | .ok w => e.look w
  | .resetWindow =>
      match Window.full? e.scene.data.length with
      | none => e
      | some w => e.look w
  | .render => e

/-- Turns leave options, plugins and backend alone, and hand nothing over. -/
theorem turn_setting (e : Engine σ ρ α) (c : Call α) :
    (e.turn c).options = e.options ∧ (e.turn c).plugins = e.plugins ∧
      (e.turn c).backend = e.backend ∧ (e.turn c).screen = e.screen := by
  cases c with
  | enter => exact ⟨rfl, rfl, rfl, rfl⟩
  | move x y =>
      simp only [turn, arrive]
      split <;> exact ⟨rfl, rfl, rfl, rfl⟩
  | leave => exact ⟨rfl, rfl, rfl, rfl⟩
  | setData data => exact ⟨rfl, rfl, rfl, rfl⟩
  | setWindow first last =>
      simp only [turn]
      split <;> exact ⟨rfl, rfl, rfl, rfl⟩
  | resetWindow =>
      simp only [turn]
      split <;> exact ⟨rfl, rfl, rfl, rfl⟩
  | render => exact ⟨rfl, rfl, rfl, rfl⟩

theorem setCrosshair_frame (p : PointerSurface α) (lines : List (Line α)) :
    (p.setCrosshair lines).hovered = p.hovered ∧ (p.setCrosshair lines).bindings = p.bindings := by
  unfold PointerSurface.setCrosshair
  split <;> exact ⟨rfl, rfl⟩

/-- A move points at the column that is drawn there, and the pointer is over the plot from then on. -/
theorem turn_move (e : Engine σ ρ α) (x y : α) :
    (e.turn (.move x y)).scene = { e.scene with cursor := ⟨e.scene.indexAt? x y, some (x, y)⟩ } ∧
      (e.turn (.move x y)).memory = e.memory ∧
      (e.turn (.move x y)).surfaces.pointer.hovered = true := by
  simp only [turn, arrive]
  split
  · rename_i inside
    exact ⟨rfl, rfl, (setCrosshair_frame e.surfaces.pointer _).1.trans inside⟩
  · exact ⟨rfl, rfl, (setCrosshair_frame (e.hover true).surfaces.pointer _).1⟩

theorem turn_ranges (e : Engine σ ρ α) (c : Call α) :
    (e.turn c).scene.xScale = e.scene.xScale ∧ (e.turn c).scene.yScale = e.scene.yScale ∧
      (e.turn c).surfaces.pointer.bindings = e.surfaces.pointer.bindings := by
  cases c with
  | move x y =>
      simp only [turn, arrive]
      split
      · exact ⟨rfl, rfl, (setCrosshair_frame e.surfaces.pointer _).2⟩
      · exact ⟨rfl, rfl, (setCrosshair_frame (e.hover true).surfaces.pointer _).2⟩
  | leave => exact ⟨rfl, rfl, (setCrosshair_frame (e.hover false).surfaces.pointer []).2⟩
  | setWindow first last =>
      simp only [turn]
      split <;> exact ⟨rfl, rfl, rfl⟩
  | resetWindow =>
      simp only [turn]
      split <;> exact ⟨rfl, rfl, rfl⟩
  | _ => exact ⟨rfl, rfl, rfl⟩

/-- Why a call does nothing, if it is refused. -/
def refusal (e : Engine σ ρ α) : Call α → Option Fault
  | .setData data =>
      match data.check with
      | .error fault => some fault
      | .ok () => none
  | .setWindow first last =>
      match Window.make first last e.scene.data.length with
      | .error fault => some fault
      | .ok _ => none
  | _ => none

/-- What an update is followed by: the plugins let go of the hovered column, then a full pass. -/
def renew (e : Engine σ ρ α) : Outcome σ ρ α := (runSetCursor e).andThen render

def follow (e : Engine σ ρ α) : Call α → Outcome σ ρ α
  | .enter => e.repaintIfDirty
  | .move _ _ => e.announce
  | .leave => e.announce
  | .setData _ => e.renew
  | .setWindow _ _ => e.renew
  | .resetWindow => if e.scene.data.length = 0 then .done e else e.renew
  | .render => e.render

theorem make_full (n : Nat) (w : Window) (full : Window.full? n = some w) :
    Window.make w.first w.last n = .ok w ∧ n ≠ 0 := by
  cases n with
  | zero => simp [Window.full?] at full
  | succ n =>
      simp only [Window.full?, Option.some.injEq] at full
      subst full
      simp [Window.make]

theorem turn_data (e : Engine σ ρ α) (c : Call α) : (e.turn c).scene.data = match c with
    | .setData data => data
    | _ => e.scene.data := by
  cases c with
  | move x y =>
      simp only [turn, arrive]
      split <;> rfl
  | setWindow first last =>
      simp only [turn]
      split <;> rfl
  | resetWindow =>
      simp only [turn]
      split <;> rfl
  | _ => rfl

theorem turn_checked (e : Engine σ ρ α) (c : Call α) (accepted : e.refusal c = none)
    (checked : e.scene.data.check = .ok ()) : (e.turn c).scene.data.check = .ok () := by
  rw [turn_data]
  cases c with
  | setData other =>
      cases valid : other.check with
      | error fault => simp [refusal, valid] at accepted
      | ok _ => rfl
  | _ => exact checked

theorem window_look (e : Engine σ ρ α) (first last : Nat)
    (accepted : e.refusal (.setWindow first last) = none) :
    ∃ w, Window.make first last e.scene.data.length = .ok w ∧
      e.turn (.setWindow first last) = e.look w := by
  cases made : Window.make first last e.scene.data.length with
  | error fault => simp [refusal, made] at accepted
  | ok w => exact ⟨w, rfl, by simp only [turn, made]⟩

theorem full_none (n : Nat) (none : Window.full? n = none) : n = 0 := by
  cases n with
  | zero => rfl
  | succ n => cases none

/-- Without columns there is no window to go back to; else all of them are looked at. -/
theorem reset_cases (e : Engine σ ρ α) :
    e.scene.data.length = 0 ∧ e.turn .resetWindow = e ∨
      e.scene.data.length ≠ 0 ∧ ∃ w, e.turn .resetWindow = e.look w := by
  simp only [turn]
  cases full : Window.full? e.scene.data.length with
  | none => exact .inl ⟨full_none _ full, rfl⟩
  | some w => exact .inr ⟨(make_full _ w full).2, w, rfl⟩

/-- Every call is its refusal, or its turn and the work that follows. -/
theorem call_eq (e : Engine σ ρ α) (c : Call α) :
    e.call c = match e.refusal c with
      | some fault => ⟨e, some fault⟩
      | none => (e.turn c).follow c := by
  cases c with
  | enter => rfl
  | move x y =>
      simp only [call, pointerMove, refusal, turn, arrive, follow]
      split <;> rfl
  | leave => rfl
  | render => rfl
  | setData data =>
      cases checked : data.check with
      | error fault => simp only [call, setData, refusal, checked]
      | ok _ =>
          simp only [call, setData, refusal, checked]
          rfl
  | setWindow first last =>
      cases made : Window.make first last e.scene.data.length with
      | error fault => simp only [call, setWindow, refusal, made]
      | ok w =>
          simp only [call, setWindow, refusal, turn, made]
          rfl
  | resetWindow =>
      simp only [call, resetWindow, refusal, turn]
      cases full : Window.full? e.scene.data.length with
      | none =>
          have empty := full_none _ full
          simp [follow, empty]
      | some w =>
          obtain ⟨made, filled⟩ := make_full _ w full
          have same : (e.look w).scene.data.length ≠ 0 := filled
          simp only [setWindow, made, follow, if_neg same]
          rfl

end Engine
end LadderChart
