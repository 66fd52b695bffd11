import LadderChart.Proofs.Standard.Band

/-!
No redundant work, over rational numbers. A pointer event marks the overlays exactly if it changes
the hovered column: what is written again without a change makes no difference, and two columns that
the pointer finds are never drawn at one place. The crosshair is switched off, so the band alone
decides. Updates hide the band, and that is part of their full pass.
-/

namespace LadderChart

def Call.OfPointer {α : Type} : Call α → Prop
  | .enter => True
  | .move _ _ => True
  | .leave => True
  | _ => False

section Single
variable {α : Type}

theorem UnderLayer.update_dirty (u : UnderLayer α) (e : Element α) (single : u.elements = [e])
    (differs : Element α → Bool) (change : Element α → Element α) :
    (u.update 0 differs change).dirty = (u.dirty || differs e) := by
  have found : u.elements[0]? = some e := by rw [single]; rfl
  simp only [update, found]
  split
  · rename_i changed
    simp [changed]
  · rename_i same
    simp [same]

theorem UnderLayer.setVisible_dirty (u : UnderLayer α) (e : Element α) (single : u.elements = [e])
    (visible : Bool) : (u.setVisible 0 visible).dirty = (u.dirty || e.visible != visible) :=
  u.update_dirty e single _ _

/-- To show or hide what is shown or hidden already makes no difference. -/
theorem UnderLayer.setVisible_same (u : UnderLayer α) (e : Element α) (single : u.elements = [e])
    (visible : Bool) (same : e.visible = visible) : u.setVisible 0 visible = u := by
  have found : u.elements[0]? = some e := by rw [single]; rfl
  simp [setVisible, update, found, same]

theorem UnderLayer.place_dirty (u : UnderLayer Rat) (e : Element Rat) (single : u.elements = [e])
    (offset width : Rat) : (u.place 0 offset width).dirty =
      (u.dirty || (!(e.offset == offset) || !(e.width == width))) :=
  u.update_dirty e single _ _

end Single

namespace Recorder
variable {α : Type} [Scalar α] (screen : Recorder α) (frame : Frame α)

theorem paint_repaints : (backend.paint screen frame).1.repaints = screen.repaints := by
  simp only [backend, counting]
  split <;> rfl

theorem repaint_passes : (backend.repaint screen frame).1.passes = screen.passes := by
  simp only [backend, counting]
  split <;> rfl

theorem repaint_counts (fine : frame.check = .ok ()) :
    (backend.repaint screen frame).1.repaints = screen.repaints + 1 := by
  simp only [backend, counting, fine]

end Recorder

namespace Engine

theorem pointer_accepted {σ ρ α : Type} [Scalar α] (e : Engine σ ρ α) (c : Call α)
    (pointed : c.OfPointer) : e.refusal c = none := by
  cases c with
  | enter => rfl
  | move x y => rfl
  | leave => rfl
  | _ => cases pointed

theorem accepted_screen {σ ρ α : Type} (e : Engine σ ρ α) (answer : ρ × Option Fault) :
    (e.accepted answer).engine.screen = answer.1 := by
  unfold accepted
  split <;> rfl

section Marked
variable {ρ : Type} {e t : Engine Band ρ Rat} {o : Options Rat}

/-- Before anything is painted: the overlays are marked exactly if another column is hovered than
before, and the band was moved exactly if there is one. -/
structure Marked (e t : Engine Band ρ Rat) : Prop where
  dirty : t.surfaces.overlayDirty = true ↔ t.scene.cursor.index ≠ e.scene.cursor.index
  updates : t.memory.updates = e.memory.updates +
    if t.scene.cursor.index ≠ e.scene.cursor.index ∧ t.scene.cursor.index.isSome then 1 else 0

/-- The hovered column was found by the pointer, in the scene as it is. -/
structure Aimed (o : Options Rat) (e : Engine Band ρ Rat) : Prop extends Anchored o e where
  found : ∀ i, e.scene.cursor.index = some i → ∃ x y, e.scene.indexAt? x y = some i

/-- The band is shown exactly while a column is hovered. -/
theorem Poised.furnished (poised : e.Poised o) :
    ∃ offset width, e.Furnished e.scene.cursor.index.isSome offset width := by
  obtain ⟨visible, offset, width, furnished, hidden⟩ := poised.standing.rests.band
  refine ⟨offset, width, ?_⟩
  cases hovered : e.scene.cursor.index with
  | none =>
      rw [hidden hovered] at furnished
      exact furnished
  | some index =>
      obtain ⟨_, pitch, centre, _, placed⟩ := poised.seated index hovered
      have same := furnished.elements.symm.trans placed
      simp only [BandLook.element, List.cons.injEq, Element.mk.injEq] at same
      rw [same.1.2.2.1] at furnished
      exact furnished

theorem Anchored.unmarked (anchored : e.Anchored o) :
    e.surfaces.under.dirty = false ∧ e.surfaces.pointer.dirty = false := by
  simpa [Surfaces.overlayDirty] using anchored.clean

/-- Showing the band for the column that is hovered makes no difference. -/
theorem Anchored.hover_same (anchored : e.Anchored o) :
    (e.hover true).surfaces.under = e.surfaces.under := by
  obtain ⟨offset, width, furnished⟩ := anchored.furnished
  change e.surfaces.under.showAll (true && e.scene.cursor.index.isSome)
    e.surfaces.pointer.bindings = _
  rw [furnished.bindings, Bool.true_and]
  exact UnderLayer.setVisible_same _ _ furnished.elements _ rfl

theorem Anchored.enter_marked (anchored : e.Anchored o) : Marked e (e.hover true) := by
  have under := anchored.hover_same
  obtain ⟨clean, clean'⟩ := anchored.unmarked
  have quiet : (e.hover true).surfaces.overlayDirty = false := by
    rw [Surfaces.overlayDirty, under, clean]
    exact clean'
  refine ⟨?_, ?_⟩
  · rw [quiet]
    simp [hover]
  · simp [hover]

/-- A move changes the cursor; to the surfaces it says that the pointer is over the plot. -/
structure Moved (e t : Engine Band ρ Rat) (x y : Rat) : Prop where
  scene : t.scene = { e.scene with cursor := ⟨e.scene.indexAt? x y, some (x, y)⟩ }
  memory : t.memory = e.memory
  under : t.surfaces.under = e.surfaces.under
  pointer : t.surfaces.pointer = { e.surfaces.pointer with hovered := true }

theorem Anchored.arrived (anchored : e.Anchored o) :
    e.arrive.options = e.options ∧ e.arrive.surfaces.under = e.surfaces.under ∧
      e.arrive.surfaces.pointer = { e.surfaces.pointer with hovered := true } := by
  unfold arrive
  split
  · rename_i inside
    refine ⟨rfl, rfl, ?_⟩
    rw [← inside]
  · exact ⟨rfl, anchored.hover_same, rfl⟩

theorem Anchored.moved (anchored : e.Anchored o) (x y : Rat) :
    Moved e (e.turn (.move x y)) x y := by
  obtain ⟨scene, memory, _⟩ := turn_move e x y
  obtain ⟨options, under, pointer⟩ := anchored.arrived
  obtain ⟨_, _, furnished⟩ := anchored.furnished
  have none : e.arrive.scene.crosshair e.arrive.options.crosshair x y = [] := by
    simp [Scene.crosshair, options, anchored.standing.options, BandLook.opts]
  refine ⟨scene, memory, under, ?_⟩
  change e.arrive.surfaces.pointer.setCrosshair _ = _
  rw [none, pointer]
  exact setCrosshair_none _ furnished.crosshair

/-! ### Being told -/

section Told
variable {visible : Bool} {offset width : Rat} (furnished : t.Furnished visible offset width)
include furnished

/-- A hidden band stays as it is while no column is hovered. -/
theorem Furnished.tell_away (hidden : visible = false) (away : t.scene.cursor.index = none) :
    t.tell.surfaces = t.surfaces ∧ t.tell.memory.updates = t.memory.updates := by
  by_cases seen : t.memory.lastIndex = some t.scene.cursor.index
  · rw [tell_seen seen]
    exact ⟨rfl, rfl⟩
  · have nowhere : BandLook.column? t.scene t.scene.cursor.index = none := by rw [away]; rfl
    rw [tell_hides seen furnished.handle nowhere]
    refine ⟨?_, rfl⟩
    change { t.surfaces with under := t.surfaces.under.setVisible 0 false } = t.surfaces
    rw [UnderLayer.setVisible_same _ _ furnished.elements false hidden]

theorem Furnished.tell_left (shown : visible = true)
    (fresh : t.memory.lastIndex ≠ some t.scene.cursor.index)
    (away : t.scene.cursor.index = none) :
    t.tell.surfaces.under.dirty = true ∧ t.tell.memory.updates = t.memory.updates := by
  have nowhere : BandLook.column? t.scene t.scene.cursor.index = none := by rw [away]; rfl
  rw [tell_hides fresh furnished.handle nowhere]
  refine ⟨?_, rfl⟩
  change (t.surfaces.under.setVisible 0 false).dirty = true
  rw [UnderLayer.setVisible_dirty _ _ furnished.elements]
  simp [BandLook.element, shown]

/-- A band that was hidden, or stood elsewhere, makes a difference when it is placed. -/
theorem Furnished.tell_seated (fresh : t.memory.lastIndex ≠ some t.scene.cursor.index)
    (beneath : t.surfaces.pointer.hovered = true) {pitch centre : Rat}
    (found : BandLook.column? t.scene t.scene.cursor.index = some (pitch, centre))
    (differs : visible = false ∨ offset ≠ (BandLook.placement t.scene pitch centre).1) :
    t.tell.surfaces.under.dirty = true ∧
      t.tell.memory.updates = t.memory.updates + 1 := by
  rw [tell_places fresh furnished.handle pitch centre found]
  refine ⟨?_, rfl⟩
  have single := UnderLayer.place_single _ _ furnished.elements
    (BandLook.placement t.scene pitch centre).1 (BandLook.placement t.scene pitch centre).2
  change ((t.surfaces.under.place 0 _ _).setVisible 0 t.surfaces.pointer.hovered).dirty = true
  rw [UnderLayer.setVisible_dirty _ _ single, UnderLayer.place_dirty _ _ furnished.elements, beneath]
  rcases differs with hidden | elsewhere
  · simp [BandLook.element, hidden]
  · simp [BandLook.element, elsewhere]

end Told

/-- Two columns that the pointer finds, with the band placed alike, are the same. -/
theorem placed_apart {s : Scene Rat} (plotted : s.Plotted) {x y x' y' : Rat} {index index' : Nat}
    (found : s.indexAt? x y = some index) (found' : s.indexAt? x' y' = some index')
    {pitch centre pitch' centre' : Rat}
    (column : BandLook.column? s (some index) = some (pitch, centre))
    (column' : BandLook.column? s (some index') = some (pitch', centre'))
    (alike : (BandLook.placement s pitch centre).1 = (BandLook.placement s pitch' centre').1) :
    index = index' := by
  obtain ⟨wide, drawn⟩ := (BandLook.column_iff _ _ _ _).mp column
  obtain ⟨wide', drawn'⟩ := (BandLook.column_iff _ _ _ _).mp column'
  have pitches : pitch = pitch' := Option.some.inj (wide.symm.trans wide')
  have ratio := plotted.ratio.ne'
  subst pitches
  simp only [BandLook.placement, sub_left_inj, div_left_inj' ratio] at alike
  exact s.indexAt_apart plotted.wide found found' (drawn.trans (alike ▸ drawn'.symm))

section Move
variable {x y : Rat} (anchored : e.Anchored o) (moved : Moved e t x y)
include anchored moved

theorem Moved.furnished : ∃ offset width,
    t.Furnished e.scene.cursor.index.isSome offset width ∧
      e.surfaces.under.elements =
        [BandLook.element e.scene.cursor.index.isSome offset width] := by
  obtain ⟨offset, width, before⟩ := anchored.furnished
  exact ⟨offset, width, ⟨moved.memory ▸ before.handle, moved.pointer ▸ before.bindings,
    moved.pointer ▸ before.crosshair, moved.under ▸ before.elements⟩, before.elements⟩

/-- The band stays as it is, whether the highlight has seen the column or not. -/
theorem Moved.still_marked (still : t.scene.cursor.index = e.scene.cursor.index) :
    Marked e t.tell := by
  obtain ⟨offset, width, furnished, _⟩ := moved.furnished anchored
  obtain ⟨clean, clean'⟩ := anchored.unmarked
  have quiet : t.surfaces.overlayDirty = false := by
    rw [Surfaces.overlayDirty, moved.under, moved.pointer, clean]
    exact clean'
  have same : t.tell.surfaces = t.surfaces ∧ t.tell.memory.updates = t.memory.updates := by
    rcases anchored.standing.rests.seen with seen | ⟨_, away⟩
    · have again : t.memory.lastIndex = some t.scene.cursor.index := by
        rw [moved.memory, still]
        exact seen
      rw [tell_seen again]
      exact ⟨rfl, rfl⟩
    · exact furnished.tell_away (by simp [away]) (still.trans away)
  have index : t.tell.scene.cursor.index = e.scene.cursor.index := still
  refine ⟨?_, ?_⟩
  · rw [same.1, quiet]
    simp [index]
  · rw [same.2, moved.memory]
    simp [index]

variable (differs : t.scene.cursor.index ≠ e.scene.cursor.index)
include differs

theorem Moved.fresh : t.memory.lastIndex ≠ some t.scene.cursor.index := by
  intro seen
  rw [moved.memory] at seen
  rcases anchored.standing.rests.seen with last | ⟨never, _⟩
  · exact differs (Option.some.inj (seen.symm.trans last))
  · rw [never] at seen
    cases seen

theorem Moved.off_marked (away : t.scene.cursor.index = none) : Marked e t.tell := by
  obtain ⟨offset, width, furnished, _⟩ := moved.furnished anchored
  have shown : e.scene.cursor.index.isSome = true := by
    rw [Option.isSome_iff_ne_none]
    exact fun gone => differs (away.trans gone.symm)
  obtain ⟨dirty, same⟩ := furnished.tell_left shown (moved.fresh anchored differs) away
  have index : t.tell.scene.cursor.index = none := away
  refine ⟨?_, ?_⟩
  · rw [index, ← away]
    simp [Surfaces.overlayDirty, dirty, differs]
  · rw [same, moved.memory, index]
    simp

end Move

theorem Aimed.on_marked (aimed : e.Aimed o) {x y : Rat} (moved : Moved e t x y)
    (differs : t.scene.cursor.index ≠ e.scene.cursor.index) {k : Nat}
    (found : e.scene.indexAt? x y = some k) : Marked e t.tell := by
  have anchored := aimed.toAnchored
  obtain ⟨offset, width, furnished, elements⟩ := moved.furnished anchored
  have there : t.scene.cursor.index = some k := by
    rw [moved.scene]
    exact found
  obtain ⟨pitch, centre, column⟩ := e.scene.indexAt_column x y k found
  have drawn : BandLook.column? t.scene t.scene.cursor.index = some (pitch, centre) := by
    rw [there, moved.scene]
    exact column
  -- a band that was shown stood on another column, which is drawn elsewhere
  have apart : e.scene.cursor.index.isSome = false ∨
      offset ≠ (BandLook.placement t.scene pitch centre).1 := by
    cases hovered : e.scene.cursor.index with
    | none => exact .inl rfl
    | some i =>
        obtain ⟨x', y', found'⟩ := aimed.found i hovered
        obtain ⟨_, pitch', centre', column', placed⟩ := anchored.seated i hovered
        have one := elements.symm.trans placed
        simp only [BandLook.element, List.cons.injEq, Element.mk.injEq] at one
        refine .inr ?_
        intro alike
        rw [one.1.2.2.2.1, moved.scene] at alike
        have same := placed_apart anchored.plotted found' found column' column alike
        exact differs (by rw [there, hovered, same])
  obtain ⟨dirty, more⟩ := furnished.tell_seated (moved.fresh anchored differs)
    (by rw [moved.pointer]) drawn apart
  have index : t.tell.scene.cursor.index = some k := there
  rw [there] at differs
  refine ⟨?_, ?_⟩
  · rw [index]
    simp [Surfaces.overlayDirty, dirty, differs]
  · rw [more, moved.memory, index, if_pos ⟨differs, rfl⟩]

theorem Aimed.move_marked (aimed : e.Aimed o) (x y : Rat) :
    Marked e (e.turn (.move x y)).tell := by
  have anchored := aimed.toAnchored
  have moved := anchored.moved x y
  have index : (e.turn (.move x y)).scene.cursor.index = e.scene.indexAt? x y := by
    rw [moved.scene]
  by_cases still : (e.turn (.move x y)).scene.cursor.index = e.scene.cursor.index
  · exact moved.still_marked anchored still
  · cases found : e.scene.indexAt? x y with
    | none => exact moved.off_marked anchored still (index.trans found)
    | some k => exact aimed.on_marked moved still found

theorem Anchored.leave_marked (anchored : e.Anchored o) : Marked e e.depart.tell := by
  obtain ⟨offset, width, before⟩ := anchored.furnished
  obtain ⟨clean, clean'⟩ := anchored.unmarked
  have hidden : e.depart.surfaces.under = e.surfaces.under.setVisible 0 false := by
    change e.surfaces.under.showAll (false && _) e.surfaces.pointer.bindings = _
    rw [before.bindings]
    rfl
  have pointer : e.depart.surfaces.pointer = { e.surfaces.pointer with hovered := false } :=
    setCrosshair_none { e.surfaces.pointer with hovered := false } before.crosshair
  have furnished : e.depart.Furnished false offset width := by
    refine ⟨before.handle, pointer ▸ before.bindings, pointer ▸ before.crosshair, ?_⟩
    rw [hidden]
    exact UnderLayer.setVisible_single _ _ before.elements false
  obtain ⟨surfaces, updates⟩ := furnished.tell_away rfl rfl
  have dirty : e.depart.tell.surfaces.overlayDirty = e.scene.cursor.index.isSome := by
    rw [surfaces, Surfaces.overlayDirty, hidden, pointer,
      UnderLayer.setVisible_dirty _ _ before.elements, clean]
    simp [BandLook.element, clean']
  have away : e.depart.tell.scene.cursor.index = none := rfl
  refine ⟨?_, ?_⟩
  · rw [dirty, away, Option.isSome_iff_ne_none]
    exact ne_comm
  · rw [updates, away, if_neg (by simp)]
    rfl

theorem Aimed.call (aimed : e.Aimed o) (c : Call Rat) : (e.call c).engine.Aimed o := by
  refine ⟨aimed.toAnchored.call c, ?_⟩
  rw [call_eq]
  cases refused : e.refusal c with
  | some fault => exact aimed.found
  | none =>
      have any : (e.turn c).Keeps fun _ => True := fun p _ => p.keeps_any
      have cursor := (follow_works (e.turn c) any c).steady.cursor
      have scene := follow_scene e c refused
      -- an update lets go of the column, and what else is hovered stays where it was found
      have gone : ∀ i, (e.turn c).scene.cursor.index = none →
          ((e.turn c).follow c).engine.scene.cursor.index = some i →
            ∃ x y, ((e.turn c).follow c).engine.scene.indexAt? x y = some i := by
        intro i away hovered
        rw [cursor, away] at hovered
        cases hovered
      intro i hovered
      cases c with
      | enter =>
          rw [cursor] at hovered
          rw [scene, if_neg (by simp [settles, updates, Call.isRender])]
          exact aimed.found i hovered
      | move x y =>
          have turned := (aimed.toAnchored.moved x y).scene
          rw [cursor, turned] at hovered
          rw [scene, if_neg (by simp [settles, updates, Call.isRender]), turned]
          exact ⟨x, y, hovered⟩
      | leave => exact gone i rfl hovered
      | setData data => exact gone i rfl hovered
      | setWindow first last =>
          obtain ⟨w, _, same⟩ := window_look e first last refused
          exact gone i (by rw [same]; rfl) hovered
      | resetWindow =>
          rcases reset_cases e with ⟨empty, same⟩ | ⟨_, w, same⟩
          · rw [cursor, same] at hovered
            rw [scene, same, if_neg (by simp [settles, updates, Call.isRender, empty])]
            exact aimed.found i hovered
          · exact gone i (by rw [same]; rfl) hovered
      | render =>
          rw [cursor] at hovered
          rw [scene, if_pos (show e.settles .render = true from rfl)]
          change ∃ x y, e.resolveScales.scene.indexAt? x y = some i
          rw [settled_resolve aimed.settled]
          exact aimed.found i hovered

theorem Aimed.run (aimed : e.Aimed o) (calls : List (Call Rat)) : (e.run calls).Aimed o := by
  induction calls generalizing e with
  | nil => exact aimed
  | cons c rest ih => exact ih (aimed.call c)

end Marked

/-! ### Calls -/

section Counted
variable {e t : Engine Band (Recorder Rat) Rat} {o : Options Rat}

structure Costs (e e' : Engine Band (Recorder Rat) Rat) : Prop where
  /-- The overlays are painted once if another column is hovered than before, else not at all. -/
  repaints : e'.screen.repaints = e.screen.repaints +
    if e'.scene.cursor.index ≠ e.scene.cursor.index then 1 else 0
  passes : e'.screen.passes = e.screen.passes
  /-- The band is placed once if another column is hovered than before, else not at all. -/
  updates : e'.memory.updates = e.memory.updates +
    if e'.scene.cursor.index ≠ e.scene.cursor.index ∧ e'.scene.cursor.index.isSome then 1 else 0

theorem Marked.costs (marked : Marked e t) (poised : t.Poised o)
    (recorder : t.backend = Recorder.backend) (screen : t.screen = e.screen) :
    Costs e t.repaintIfDirty.engine := by
  have frame := overlayFrame_check poised.plotted.viewport poised.under_check
    poised.standing.rests.upper_check
  have band := repainted_sameBand t
  have counted : t.repaintIfDirty.engine.screen.repaints = e.screen.repaints +
      (if t.surfaces.overlayDirty then 1 else 0) ∧
        t.repaintIfDirty.engine.screen.passes = e.screen.passes := by
    unfold repaintIfDirty
    split
    · simp only [repaint, accepted_screen, recorder, screen]
      exact ⟨Recorder.repaint_counts _ _ frame, Recorder.repaint_passes _ _⟩
    · exact ⟨congrArg (·.repaints) screen, congrArg (·.passes) screen⟩
  refine ⟨?_, counted.2, ?_⟩
  · rw [counted.1, band.index]
    simp only [marked.dirty]
  · rw [band.memory, band.index]
    exact marked.updates

theorem Aimed.pointer_costs (aimed : e.Aimed o) (recorder : e.backend = Recorder.backend)
    (c : Call Rat) (pointed : c.OfPointer) : Costs e (e.call c).engine := by
  have anchored := aimed.toAnchored
  have accepted := pointer_accepted e c pointed
  have shaken := anchored.turn c
  have setting := turn_setting e c
  rw [call_eq, accepted]
  cases c with
  | enter =>
      exact anchored.enter_marked.costs anchored.enter recorder rfl
  | move x y =>
      change Costs e (e.turn (.move x y)).announce.engine
      rw [announce_standard shaken.plugins]
      exact (aimed.move_marked x y).costs (shaken.tell (anchored.move x y))
        (setting.2.2.1.trans recorder) setting.2.2.2
  | leave =>
      change Costs e (e.turn .leave).announce.engine
      rw [announce_standard shaken.plugins]
      exact anchored.leave_marked.costs (shaken.tell (ready_away rfl)) recorder rfl
  | _ => cases pointed

/-- What an update or a full pass costs: nothing but the pass. -/
structure Spares (e e' : Engine Band (Recorder Rat) Rat) : Prop where
  repaints : e'.screen.repaints = e.screen.repaints
  updates : e'.memory.updates = e.memory.updates

theorem tell_updates (away : t.scene.cursor.index = none) :
    t.tell.memory.updates = t.memory.updates := by
  simp only [tell, BandLook.setCursor, away, BandLook.column?, Slot.whole, id_eq]
  split
  · rfl
  · split <;> rfl

theorem sketch_spares (recorder : t.backend = Recorder.backend) :
    Spares t t.sketch.paint.engine := by
  refine ⟨?_, congrArg Band.updates (sketched_sameBand t).memory⟩
  have same : t.sketch.backend = Recorder.backend := recorder
  simp only [paint, accepted_screen, same]
  exact Recorder.paint_repaints _ _

theorem renew_spares (standard : t.Standard) (recorder : t.backend = Recorder.backend)
    (away : t.scene.cursor.index = none) : Spares t t.renew.engine := by
  have told : t.tell.backend = Recorder.backend := recorder
  have spares := sketch_spares told
  rw [renew_standard standard]
  exact ⟨spares.repaints, spares.updates.trans (tell_updates away)⟩

theorem update_spares (standard : e.Standard) (recorder : e.backend = Recorder.backend)
    (c : Call Rat) (other : ¬ c.OfPointer) : Spares e (e.call c).engine := by
  rw [call_eq]
  cases refused : e.refusal c with
  | some fault => exact ⟨rfl, rfl⟩
  | none =>
      cases c with
      | setData data =>
          have spares := renew_spares (t := e.load data) standard recorder rfl
          exact ⟨spares.repaints, spares.updates⟩
      | setWindow first last =>
          obtain ⟨w, _, same⟩ := window_look e first last refused
          have spares := renew_spares (t := e.look w) standard recorder rfl
          rw [same]
          exact ⟨spares.repaints, spares.updates⟩
      | resetWindow =>
          rcases reset_cases e with ⟨empty, same⟩ | ⟨filled, w, same⟩
          · rw [same, follow, if_pos empty]
            exact ⟨rfl, rfl⟩
          · have spares := renew_spares (t := e.look w) standard recorder rfl
            rw [same, follow, if_neg (show (e.look w).scene.data.length ≠ 0 from filled)]
            exact ⟨spares.repaints, spares.updates⟩
      | render =>
          change Spares e e.render.engine
          rw [render_standard standard]
          exact sketch_spares recorder
      | _ => exact absurd trivial other

/-! ### Reachable engines -/

structure Frugal (e : Engine Band (Recorder Rat) Rat) (c : Call Rat) : Prop where
  pointer : c.OfPointer → Costs e (e.call c).engine
  update : ¬ c.OfPointer → Spares e (e.call c).engine

theorem opened_aimed {ρ : Type} {backend : Backend ρ Rat} {screen : ρ} {data : Dataset Rat}
    {e : Engine Band ρ Rat} (accepts : backend.Accepts)
    (opened : openWith backend screen (.standard o) data = .opened e) : e.Aimed o := by
  refine ⟨opened_anchored accepts opened, ?_⟩
  obtain ⟨first, start, done⟩ := opened_cases opened
  have scene := (opened_scaled done).2
  intro i hovered
  have away : e.scene.cursor.index = none := by
    have before : first.scene.cursor.index = none := laid_away start
    rw [scene]
    exact before
  rw [away] at hovered
  cases hovered

/-- Whatever was called before: a call of the pointer paints the overlays once and places the band
once if it changes the hovered column, the latter only if there is one then, and makes no full pass;
other data, another window or a full pass do neither. -/
theorem pointer_work_needed {screen : Recorder Rat} {data : Dataset Rat}
    (opened : openWith Recorder.backend screen (.standard o) data = .opened e)
    (calls : List (Call Rat)) (c : Call Rat) : (e.run calls).Frugal c := by
  have aimed := (opened_aimed Recorder.accepts opened).run calls
  obtain ⟨first, start, setting⟩ := reach_setting opened calls
  have recorder : (e.run calls).backend = Recorder.backend := setting.backend.trans start.backend
  exact ⟨aimed.pointer_costs recorder c, update_spares aimed.standing.plugins recorder c⟩

def exactChart : Opening Band (Recorder Rat) Rat :=
  openWith Recorder.backend .fresh (.standard .standard) gappedColumns

/-- Within the second column nothing is painted, and off the plot the overlays are, once. -/
theorem gapped_columns_frugal : ∃ e, exactChart = .opened e ∧
    (e.run [.move 456.0 100.0]).scene.cursor.index = some 1 ∧
    ((e.run [.move 456.0 100.0]).call (.move 470.0 100.0)).engine.screen.repaints =
      (e.run [.move 456.0 100.0]).screen.repaints ∧
    ((e.run [.move 456.0 100.0]).call .leave).engine.screen.repaints =
      (e.run [.move 456.0 100.0]).screen.repaints + 1 := by
  have evaluated : exactChart.passes (fun e =>
      let reached := e.run [.move 456.0 100.0]
      decide (reached.scene.cursor.index = some 1 ∧
        (reached.call (.move 470.0 100.0)).engine.scene.cursor.index = some 1 ∧
        (reached.call .leave).engine.scene.cursor.index = none)) = true := by decide +kernel
  obtain ⟨e, opened, test⟩ := (Opening.passes_iff _ _).mp evaluated
  obtain ⟨hovered, within, away⟩ := of_decide_eq_true test
  have frugal := pointer_work_needed opened [.move 456.0 100.0]
  have moved := ((frugal (.move 470.0 100.0)).pointer trivial).repaints
  have left := ((frugal .leave).pointer trivial).repaints
  rw [within, hovered, if_neg (by simp)] at moved
  rw [away, hovered, if_pos (by simp)] at left
  exact ⟨e, opened, hovered, moved, left⟩

end Counted

end Engine
end LadderChart
