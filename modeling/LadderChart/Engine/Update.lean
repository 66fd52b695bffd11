import LadderChart.Engine.Basic

/-!
Changing what is shown: the data (`set_data`), or the window of it (`set_visible_window` and
`reset_visible_window`). Data and window are checked before anything is touched. The hovered column
is let go in either case; the pointer stays where it is.
-/

namespace LadderChart.Engine
variable {σ ρ α : Type} [Scalar α]

def letGo (e : Engine σ ρ α) : Outcome σ ρ α :=
  runSetCursor { e with scene := { e.scene with cursor := ⟨none, e.scene.cursor.pointer⟩ } }

def setData (e : Engine σ ρ α) (data : Dataset α) : Outcome σ ρ α :=
  match data.check with
  | .error fault => ⟨e, some fault⟩
  | .ok () =>
      (letGo { e with scene := { e.scene with
        data := data, window := Window.full? data.length } }).andThen render

def zoom (e : Engine σ ρ α) (w : Window) : Outcome σ ρ α :=
  (letGo { e with scene := { e.scene with window := some w } }).andThen render

def setWindow (e : Engine σ ρ α) (first last : Nat) : Outcome σ ρ α :=
  match Window.make first last e.scene.data.length with
  | .error fault => ⟨e, some fault⟩
  | .ok w => e.zoom w

/-- Shows all columns again; without any there is nothing to do. -/
def resetWindow (e : Engine σ ρ α) : Outcome σ ρ α :=
  match Window.full? e.scene.data.length with
  | some w => e.setWindow w.first w.last
  | none => .done e

end LadderChart.Engine
