import LadderChart.Chart.Scene

/-!
Plugins. A plugin changes the options once (`opts`), and then acts at three hooks (`init`,
`set_cursor`, `draw`). The plugins of a chart share one memory `σ`; each keeps its part of it in a
slot. A hook answers with the memory it leaves, the actions it takes and, if it fails, the fault;
the actions before a fault have been taken. That a hook answers at all, and reaches nothing but the
surfaces, is assumed of a plugin by its type.
-/

namespace LadderChart

structure HookRun (σ α : Type) where
  memory : σ
  actions : List (Action α)
  fault : Option Fault

def HookRun.quiet {σ α : Type} (memory : σ) : HookRun σ α := ⟨memory, [], none⟩

abbrev HookBody (σ α : Type) := σ → Scene α → Surfaces α → HookRun σ α

structure Plugin (σ α : Type) where
  id : String
  opts : σ → Options α → σ × Except Fault (Options α) := fun memory o => (memory, .ok o)
  init : HookBody σ α := fun memory _ _ => .quiet memory
  setCursor : HookBody σ α := fun memory _ _ => .quiet memory
  draw : HookBody σ α := fun memory _ _ => .quiet memory

/-- Where a plugin keeps its part of the shared memory. -/
structure Slot (σ τ : Type) where
  get : σ → τ
  set : τ → σ → σ

namespace Slot
variable {σ τ : Type}

def whole : Slot τ τ := ⟨id, fun x _ => x⟩

def modify (s : Slot σ τ) (change : τ → τ) (memory : σ) : σ := s.set (change (s.get memory)) memory

end Slot

namespace HookBody
variable {σ α : Type} [Scalar α]

/-- One body after the other; the second sees what the first did, and is left out if it failed. -/
def followedBy (first second : HookBody σ α) : HookBody σ α := fun memory scene surfaces =>
  let start := first memory scene surfaces
  match start.fault with
  | some _ => start
  | none =>
      -- the second body sees the surfaces as the first one left them
      let rest := second start.memory scene (surfaces.run start.actions)
      { rest with actions := start.actions ++ rest.actions }

def times (body : HookBody σ α) : Nat → HookBody σ α
  | 0 => fun memory _ _ => .quiet memory
  | n + 1 => followedBy body (times body n)

end HookBody

namespace Plugin
variable {σ α : Type}

/-- No plugin has an empty id, and no two have the same. -/
def checkIds (seen : List String) : List (Plugin σ α) → Check
  | [] => .ok ()
  | p :: rest => do
      refuseIf p.id.isEmpty .pluginIdEmpty
      refuseIf (seen.contains p.id) (.pluginIdTaken p.id)
      checkIds (p.id :: seen) rest

def runOpts (memory : σ) (o : Options α) : List (Plugin σ α) → σ × Except Fault (Options α)
  | [] => (memory, .ok o)
  | p :: rest =>
      match p.opts memory o with
      | (memory, .ok o) => runOpts memory o rest
      | (memory, .error fault) => (memory, .error (.plugin p.id .opts fault))

end Plugin
end LadderChart
