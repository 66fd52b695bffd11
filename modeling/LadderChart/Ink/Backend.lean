import LadderChart.Ink.Layer

/-!
What paints frames. A backend is given by two functions over a state of its own, one for full
frames and one for overlays; all that the engine sees of it is whether it refuses a frame. The
recorder is the backend that checks frames, counts them and keeps the last ones. The backend that
fills pixels and writes pictures, with its fonts, stays outside.
-/

namespace LadderChart

structure Backend (ρ α : Type) where
  paint : ρ → Frame α → ρ × Option Fault
  repaint : ρ → Frame α → ρ × Option Fault

structure Recorder (α : Type) where
  passes : Nat
  repaints : Nat
  lastFrame : Option (Frame α)
  lastOverlay : Option (Frame α)
  deriving DecidableEq

namespace Recorder
variable {α : Type}

def fresh : Recorder α := ⟨0, 0, none, none⟩

def counting [Scalar α] (accept : Recorder α → Frame α → Recorder α) (r : Recorder α)
    (f : Frame α) : Recorder α × Option Fault :=
  match f.check with
  | .ok () => (accept r f, none)
  | .error fault => (r, some fault)

def backend [Scalar α] : Backend (Recorder α) α where
  paint := counting fun r f => { r with passes := r.passes + 1, lastFrame := some f }
  repaint := counting fun r f => { r with repaints := r.repaints + 1, lastOverlay := some f }

end Recorder
end LadderChart
