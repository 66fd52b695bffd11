import LadderChart.Engine.Pointer
import LadderChart.Engine.Update

/-!
Calls to an engine as data, and runs of calls. A call that fails does not end a run: the next one
starts from what it left.
-/

namespace LadderChart

inductive Call (α : Type) where
  | enter
  | move (x y : α)
  | leave
  | setData (data : Dataset α)
  | setWindow (first last : Nat)
  | resetWindow
  | render

namespace Engine
variable {σ ρ α : Type} [Scalar α]

def call (e : Engine σ ρ α) : Call α → Outcome σ ρ α
  | .enter => e.pointerEnter
  | .move x y => e.pointerMove x y
  | .leave => e.pointerLeave
  | .setData data => e.setData data
  | .setWindow first last => e.setWindow first last
  | .resetWindow => e.resetWindow
  | .render => e.render

def run (e : Engine σ ρ α) : List (Call α) → Engine σ ρ α
  | [] => e
  | c :: rest => run (e.call c).engine rest

theorem run_append (e : Engine σ ρ α) (first second : List (Call α)) :
    e.run (first ++ second) = (e.run first).run second := by
  induction first generalizing e with
  | nil => rfl
  | cons c rest ih => simp [run, ih]

end Engine
end LadderChart
