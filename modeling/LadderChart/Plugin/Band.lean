import LadderChart.Chart.Plugin

/-!
The column highlight: a translucent band over the hovered column, as wide as a column and centred
on it. It is an element of the under layer, shown with the pointer; the lines of the crosshair are
switched off for it. The band is placed anew only when the hovered column changes.
-/

namespace LadderChart

/-- What a highlight remembers. Before the first event there is no last column at all, which is
not the same as no column being hovered. -/
structure Band where
  handle : Option Handle
  lastIndex : Option (Option Nat)
  updates : Nat
  deriving DecidableEq

def Band.fresh : Band := ⟨none, none, 0⟩

structure BandLook (α : Type) where
  id : String
  fill : Color α
  className : Option String
  deriving DecidableEq

namespace BandLook
variable {σ α : Type} [Scalar α]

def standardFill : Color α := ⟨0.2, 0.8, 1.0, 0.3⟩

def standard : BandLook α := ⟨"column-highlight", standardFill, none⟩

def opts (o : Options α) : Options α :=
  { o with crosshair := { o.crosshair with x := false, y := false } }

/-- The first time the band is appended and bound; after that nothing happens. -/
def init (look : BandLook α) (slot : Slot σ Band) : HookBody σ α := fun memory _ surfaces =>
  match (slot.get memory).handle with
  | some _ => .quiet memory
  | none =>
      let handle := surfaces.under.nextHandle
      { memory := slot.modify (fun band => { band with handle := some handle }) memory
        actions := [.append (.fresh look.fill look.className), .bind handle]
        fault := none }

def column? (s : Scene α) (index : Option Nat) : Option (α × α) :=
  match index with
  | none => none
  | some i =>
      match s.pitch?, s.columnPixel? i with
      | some pitch, some centre => some (pitch, centre)
      | _, _ => none

def placement (s : Scene α) (pitch centre : α) : α × α :=
  let width := pitch / s.pixelRatio
  ((centre - s.box.left) / s.pixelRatio - width / 2.0, width)

def setCursor (slot : Slot σ Band) : HookBody σ α := fun memory scene surfaces =>
  let index := scene.cursor.index
  let band := slot.get memory
  if band.lastIndex = some index then .quiet memory
  else
    -- the column counts as seen even while there is no band
    let seen := { band with lastIndex := some index }
    match band.handle with
    | none => .quiet (slot.set seen memory)
    | some handle =>
        match column? scene index with
        | none => ⟨slot.set seen memory, [.reveal handle false], none⟩
        | some (pitch, centre) =>
            let place := placement scene pitch centre
            { memory := slot.set { seen with updates := band.updates + 1 } memory
              actions := [.place handle place.1 place.2, .reveal handle surfaces.pointer.hovered]
              fault := none }

def plugin (look : BandLook α) (slot : Slot σ Band) : Plugin σ α where
  id := look.id
  opts memory o := (memory, .ok (opts o))
  init := look.init slot
  setCursor := setCursor slot

end BandLook
end LadderChart
