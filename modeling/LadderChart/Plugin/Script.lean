import LadderChart.Chart.Plugin
import LadderChart.Plugin.Band

/-!
Plugins written as data: at each hook a list of steps that draw, move overlay elements, note what
they see, or fail. They share a desk with any number of highlights; notes are kept in the order in
which they are taken, whichever plugin takes them.
-/

namespace LadderChart

/-- What a step sees: style and depth of the canvas, how much of each kind of ink there is, the
hovered column, the width of a column. -/
structure Sight (α : Type) where
  style : Style α
  depth : Nat
  lines : Nat
  rects : Nat
  labels : Nat
  cursor : Option Nat
  pitch : Option α

inductive Note (α : Type) where
  | entered (id : String) (hook : Hook)
  | appended (h : Handle)
  | seen (sight : Sight α)

structure Desk (α : Type) where
  bands : List Band
  notes : List (Note α)

namespace Desk
variable {α : Type}

def fresh (bands : Nat) : Desk α := ⟨List.replicate bands .fresh, []⟩

def write (d : Desk α) (note : Note α) : Desk α := { d with notes := d.notes ++ [note] }

def bandAt (d : Desk α) (place : Nat) : Band := (d.bands[place]?).getD .fresh

def band (place : Nat) : Slot (Desk α) Band where
  get d := d.bandAt place
  set band d := { d with bands := d.bands.set place band }

end Desk

inductive Step (α : Type) where
  | act (action : Action α)
  | probe
  | fail (fault : Fault)
  | failAt (fault : Fault) (index : Nat)
  | failLength (fault : Fault) (length : Nat)

inductive OptsStep (α : Type) where
  | change (f : Options α → Options α)
  | fail (fault : Fault)

structure Script (α : Type) where
  id : String
  opts : List (OptsStep α)
  init : List (Step α)
  setCursor : List (Step α)
  draw : List (Step α)

namespace Script
variable {α : Type} [Scalar α]

def sight (scene : Scene α) (s : Surfaces α) : Sight α where
  style := s.canvas.style
  depth := s.canvas.depth
  lines := s.canvas.ink.lines.length
  rects := s.canvas.ink.rects.length
  labels := s.canvas.ink.labels.length
  cursor := scene.cursor.index
  pitch := scene.pitch?

/-- Appending an element is noted with its handle. -/
def noteAction (d : Desk α) (s : Surfaces α) : Action α → Desk α
  | .append _ => d.write (.appended s.under.nextHandle)
  | _ => d

def runSteps : List (Step α) → HookBody (Desk α) α
  | [], d, _, _ => .quiet d
  | .act action :: rest, d, scene, s =>
      let run := runSteps rest (noteAction d s action) scene (s.apply action)
      { run with actions := action :: run.actions }
  | .probe :: rest, d, scene, s => runSteps rest (d.write (.seen (sight scene s))) scene s
  | .fail fault :: _, d, _, _ => ⟨d, [], some fault⟩
  | .failAt fault index :: rest, d, scene, s =>
      if scene.cursor.index = some index then ⟨d, [], some fault⟩ else runSteps rest d scene s
  | .failLength fault length :: rest, d, scene, s =>
      if scene.data.length = length then ⟨d, [], some fault⟩ else runSteps rest d scene s

def runOpts (o : Options α) : List (OptsStep α) → Except Fault (Options α)
  | [] => .ok o
  | .change f :: rest => runOpts (f o) rest
  | .fail fault :: _ => .error fault

def body (id : String) (hook : Hook) (steps : List (Step α)) : HookBody (Desk α) α :=
  fun d scene s => runSteps steps (d.write (.entered id hook)) scene s

def plugin (script : Script α) : Plugin (Desk α) α where
  id := script.id
  opts d o := (d.write (.entered script.id .opts), runOpts o script.opts)
  init := body script.id .init script.init
  setCursor := body script.id .setCursor script.setCursor
  draw := body script.id .draw script.draw

end Script
end LadderChart
