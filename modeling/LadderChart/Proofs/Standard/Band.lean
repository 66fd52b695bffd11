import LadderChart.Proofs.Engine.Aim
import LadderChart.Proofs.Engine.Scales
import LadderChart.Proofs.Overlay.Shown
import LadderChart.Proofs.Standard.Ink
import LadderChart.Proofs.Standard.Rebuild

/-!
The band stands on the hovered column, over rational numbers. A column can be hovered only where it
is drawn, the highlight places the band there as it is told, and whatever moves the columns lets go
of the hovered one. Every frame passes its check, so over a backend that accepts such frames the
band is shown where it stands.
-/

namespace LadderChart

/-- Frames that pass their check are not refused. -/
def Backend.Accepts {ρ α : Type} [Scalar α] (b : Backend ρ α) : Prop :=
  ∀ screen frame, frame.check = .ok () →
    (b.paint screen frame).2 = none ∧ (b.repaint screen frame).2 = none

theorem Recorder.accepts {α : Type} [Scalar α] : (Recorder.backend (α := α)).Accepts := by
  intro screen frame fine
  constructor <;> simp only [backend, counting, fine]

/-- A column that the hit test finds is drawn somewhere. -/
theorem Scene.indexAt_column (s : Scene Rat) (x y : Rat) (index : Nat)
    (found : s.indexAt? x y = some index) :
    ∃ pitch centre, BandLook.column? s (some index) = some (pitch, centre) := by
  obtain ⟨within, low, high, range⟩ := indexAt_within x y index found
  obtain ⟨w, shown, _⟩ := s.indexAt_inside x y index found
  obtain ⟨value, _, asks⟩ := indexAt_reads shown range x y within
  obtain ⟨v, placed⟩ := Hit.column_valued _ _ w value index (asks ▸ found)
  have drawn := column_drawn range index v placed
  refine ⟨Scale.pitch w s.box, s.box.left + Scale.fraction low high v * s.box.width, ?_⟩
  simp only [BandLook.column?, pitch?, shown, Option.map_some, drawn]

theorem UnderLayer.place_single (u : UnderLayer Rat) (e : Element Rat) (single : u.elements = [e])
    (offset width : Rat) :
    (u.place 0 offset width).elements = [{ e with offset := offset, width := width }] := by
  rw [place, update_single u e single]
  by_cases still : e.offset = offset ∧ e.width = width
  · obtain ⟨rfl, rfl⟩ := still
    simp
  · have differs : (!(e.offset == offset) || !(e.width == width)) = true := by
      rcases not_and_or.mp still with far | far <;> simp [far]
    rw [if_pos differs]

theorem Options.check_ratio (o : Options Rat) (checked : o.check = .ok ()) : 0 < o.pixelRatio := by
  unfold check at checked
  simp only [] at checked
  rw [throwIf_eq_ok, both_eq_ok, refuseIf_eq_ok] at checked
  simpa [Scalar.zero_rat] using checked.2.1

theorem Scene.Plotted.pitch_nonneg {s : Scene Rat} (plotted : s.Plotted) (pitch : Rat)
    (wide : s.pitch? = some pitch) : 0 ≤ pitch := by
  obtain ⟨w, _, same⟩ := Option.map_eq_some_iff.mp wide
  rw [← same, Scale.pitch, Scalar.ofNat_rat]
  exact div_nonneg plotted.wide.le (Nat.cast_nonneg _)

namespace Engine
variable {ρ : Type} {e : Engine Band ρ Rat} {o : Options Rat}

/-- The band is shown on a column. -/
def Placed (e : Engine Band ρ Rat) (index : Nat) : Prop :=
  ∃ pitch centre, BandLook.column? e.scene (some index) = some (pitch, centre) ∧
    e.surfaces.under.elements =
      [BandLook.element true (BandLook.placement e.scene pitch centre).1
        (BandLook.placement e.scene pitch centre).2]

/-- A hovered column is under the pointer, and the band is on it. -/
def Seated (e : Engine Band ρ Rat) : Prop :=
  ∀ index, e.scene.cursor.index = some index →
    e.surfaces.pointer.hovered = true ∧ e.Placed index

/-- A hovered column is under the pointer and is drawn somewhere; if the highlight has seen it
before, the band is there already. -/
def Ready (e : Engine Band ρ Rat) : Prop :=
  ∀ index, e.scene.cursor.index = some index → e.surfaces.pointer.hovered = true ∧
    (∃ pitch centre, BandLook.column? e.scene (some index) = some (pitch, centre)) ∧
      (e.memory.lastIndex = some (some index) → e.Placed index)

theorem seated_away (away : e.scene.cursor.index = none) : e.Seated := by
  intro index hovered
  rw [away] at hovered
  cases hovered

theorem ready_away (away : e.scene.cursor.index = none) : e.Ready := by
  intro index hovered
  rw [away] at hovered
  cases hovered

theorem seated_tell (stirred : e.Stirred) (ready : e.Ready) : e.tell.Seated := by
  intro index hovered
  have there : e.scene.cursor.index = some index := hovered
  obtain ⟨beneath, ⟨pitch, centre, found⟩, before⟩ := ready index there
  by_cases seen : e.memory.lastIndex = some e.scene.cursor.index
  · -- the highlight does nothing for the column it saw last, so the band has to be there already
    rw [tell_seen seen]
    exact ⟨beneath, before (there ▸ seen)⟩
  · obtain ⟨visible, offset, width, furnished, _⟩ := stirred
    rw [tell_places seen furnished.handle pitch centre (there ▸ found)]
    refine ⟨beneath, pitch, centre, found, ?_⟩
    have placed := UnderLayer.place_single _ _ furnished.elements
      (BandLook.placement e.scene pitch centre).1 (BandLook.placement e.scene pitch centre).2
    have shown := UnderLayer.setVisible_single _ _ placed e.surfaces.pointer.hovered
    rw [beneath] at shown ⊢
    exact shown

/-! ### Frames -/

/-- What is asked of an engine before it hands a frame over. -/
structure Poised (o : Options Rat) (e : Engine Band ρ Rat) : Prop where
  standing : e.Standing o
  seated : e.Seated
  plotted : e.scene.Plotted
  accepts : e.backend.Accepts

theorem bandRect_check (o : Options Rat) {s : Scene Rat} (plotted : s.Plotted) (offset : Rat)
    {width : Rat} (wide : 0 ≤ width) :
    (bandRect o s (BandLook.element true offset width)).check = .ok () := by
  have tall := plotted.tall.le
  have scaled : 0 ≤ width * s.pixelRatio := mul_nonneg wide plotted.ratio.le
  rw [Rect.check_eq_ok]
  simp only [finite_rat, Scalar.zero_rat, true_and]
  refine ⟨⟨scaled, tall⟩, ?_⟩
  apply Color.check_rat <;>
    simp only [bandRect, BandLook.element, Option.bind_none, Option.getD_none,
      BandLook.standardFill] <;> norm_num

theorem Poised.under_check (poised : e.Poised o) :
    (underInk e.options e.scene e.surfaces.under).check = .ok () := by
  obtain ⟨visible, offset, width, furnished, hidden⟩ := poised.standing.rests.band
  cases hovered : e.scene.cursor.index with
  | none =>
      simp only [underInk, furnished.elements, hidden hovered, BandLook.element]
      rfl
  | some index =>
      obtain ⟨_, pitch, centre, found, placed⟩ := poised.seated index hovered
      have wide := poised.plotted.pitch_nonneg pitch ((BandLook.column_iff _ _ _ _).mp found).1
      have sized : 0 ≤ (BandLook.placement e.scene pitch centre).2 :=
        div_nonneg wide poised.plotted.ratio.le
      have rect := bandRect_check e.options poised.plotted
        (BandLook.placement e.scene pitch centre).1 sized
      rw [underInk, placed, Layer.check_eq_ok]
      exact ⟨by simp [Layer.blank], List.forall_mem_singleton.mpr rect, by simp [Layer.blank]⟩

/-- A frame was handed over if there was need for one, it was accepted, and all is as it was. -/
structure Painted (o : Options Rat) (e : Engine Band ρ Rat) (outcome : Outcome Band ρ Rat) : Prop where
  fine : outcome.fault = none
  poised : outcome.engine.Poised o
  clean : outcome.engine.surfaces.overlayDirty = false
  scene : outcome.engine.scene = e.scene

theorem Poised.accepted (poised : e.Poised o) (answer : ρ × Option Fault) (fine : answer.2 = none) :
    Painted o e (e.accepted answer) := by
  have ok : (e.accepted answer).fault = none := (accepted_fault e answer).trans fine
  have band := accepted_sameBand e answer
  have steady := accepted_steady e answer
  have scene := accepted_scene e answer
  refine ⟨ok, ⟨⟨?_, ?_, ?_⟩, ?_, ?_, ?_⟩, accepted_clean e answer ok, scene⟩
  · exact steady.options.trans poised.standing.options
  · exact steady.plugins.trans poised.standing.plugins
  · exact poised.standing.rests.same band
  · intro index hovered
    rw [scene] at hovered
    obtain ⟨beneath, pitch, centre, found, placed⟩ := poised.seated index hovered
    refine ⟨steady.hovered.trans beneath, pitch, centre, ?_, ?_⟩
    · rw [scene]
      exact found
    · rw [scene, band.elements]
      exact placed
  · rw [scene]
    exact poised.plotted
  · rw [steady.backend]
    exact poised.accepts

theorem Poised.paint_fine (poised : e.Poised o) (ink : e.surfaces.canvas.ink.check = .ok ()) :
    (e.backend.paint e.screen e.fullFrame).2 = none :=
  (poised.accepts _ _ (fullFrame_check poised.plotted.viewport poised.under_check ink
    poised.standing.rests.upper_check)).1

theorem Poised.repaint_fine (poised : e.Poised o) :
    (e.backend.repaint e.screen e.overlayFrame).2 = none :=
  (poised.accepts _ _ (overlayFrame_check poised.plotted.viewport poised.under_check
    poised.standing.rests.upper_check)).2

theorem Poised.paint (poised : e.Poised o) (ink : e.surfaces.canvas.ink.check = .ok ()) :
    Painted o e e.paint :=
  poised.accepted _ (poised.paint_fine ink)

theorem Poised.repaintIfDirty (poised : e.Poised o) : Painted o e e.repaintIfDirty := by
  unfold Engine.repaintIfDirty
  split
  · exact poised.accepted _ poised.repaint_fine
  · rename_i clean
    rw [Bool.not_eq_true] at clean
    exact ⟨rfl, poised, clean, rfl⟩

/-! ### Calls -/

/-- What holds between calls: besides the band, the scales belong to what is shown, and the overlays
are painted. -/
structure Anchored (o : Options Rat) (e : Engine Band ρ Rat) : Prop extends Poised o e where
  settled : e.scene.ScaledOn e.options e.scene.basis
  clean : e.surfaces.overlayDirty = false

structure Shaken (o : Options Rat) (e : Engine Band ρ Rat) : Prop where
  options : e.options = BandLook.opts o
  plugins : e.Standard
  stirred : e.Stirred
  plotted : e.scene.Plotted
  accepts : e.backend.Accepts

theorem Painted.anchored {outcome : Outcome Band ρ Rat} (painted : Painted o e outcome)
    (options : e.options = BandLook.opts o)
    (settled : e.scene.ScaledOn e.options e.scene.basis) : outcome.engine.Anchored o := by
  refine ⟨painted.poised, ?_, painted.clean⟩
  rw [painted.scene, painted.poised.standing.options, ← options]
  exact settled

/-- The ink of a pass is fit for a frame. If a column stays hovered meanwhile, the scales must have
been settled before. -/
theorem Poised.sketched (poised : e.Poised o)
    (still : e.scene.cursor.index ≠ none → e.resolveScales.scene = e.scene) :
    e.sketch.Poised o ∧ e.sketch.surfaces.canvas.ink.check = .ok () := by
  have plotted : e.resolveScales.scene.Plotted :=
    ⟨poised.plotted.viewport, poised.plotted.ratio, poised.plotted.wide, poised.plotted.tall⟩
  refine ⟨⟨⟨poised.standing.options, poised.standing.plugins,
    poised.standing.rests.same (sketch_sameBand e)⟩, ?_, plotted, poised.accepts⟩,
    (picture_fit e.options e.resolveScales.scene plotted).ink⟩
  intro index hovered
  have there : e.scene.cursor.index = some index := hovered
  have scene : e.sketch.scene = e.scene := still (by simp [there])
  obtain ⟨beneath, pitch, centre, found, placed⟩ := poised.seated index there
  exact ⟨beneath, pitch, centre, scene ▸ found, scene ▸ placed⟩

theorem Poised.pass (poised : e.Poised o)
    (still : e.scene.cursor.index ≠ none → e.resolveScales.scene = e.scene) :
    e.sketch.paint.engine.Anchored o := by
  obtain ⟨sketched, ink⟩ := poised.sketched still
  exact (sketched.paint ink).anchored poised.standing.options (resolve_scaled e)

theorem Shaken.tell (shaken : e.Shaken o) (ready : e.Ready) : e.tell.Poised o :=
  ⟨⟨shaken.options, shaken.plugins, rests_tell shaken.stirred⟩, seated_tell shaken.stirred ready,
    shaken.plotted, shaken.accepts⟩

theorem Shaken.renew (shaken : e.Shaken o) (away : e.scene.cursor.index = none) :
    e.renew.engine.Anchored o := by
  have told : e.tell.Poised o := shaken.tell (ready_away away)
  rw [renew_standard shaken.plugins]
  exact told.pass fun hovered => absurd away hovered

theorem Shaken.announce (shaken : e.Shaken o)
    (settled : e.scene.ScaledOn e.options e.scene.basis) (ready : e.Ready) :
    e.announce.engine.Anchored o := by
  rw [announce_standard shaken.plugins]
  exact (shaken.tell ready).repaintIfDirty.anchored shaken.options settled

theorem Anchored.turn (anchored : e.Anchored o) (c : Call Rat) : (e.turn c).Shaken o := by
  have same := turn_sameSetting e c
  have plotted := anchored.plotted
  refine ⟨same.options.trans anchored.standing.options,
    same.plugins.trans anchored.standing.plugins,
    stirred_turn anchored.standing.options anchored.standing.rests c, ⟨?_, ?_, ?_, ?_⟩, ?_⟩
  · exact same.viewport ▸ plotted.viewport
  · exact same.pixelRatio ▸ plotted.ratio
  · exact same.box ▸ plotted.wide
  · exact same.box ▸ plotted.tall
  · exact same.backend ▸ anchored.accepts

theorem Anchored.enter (anchored : e.Anchored o) : (e.hover true).Poised o := by
  have shaken := anchored.turn .enter
  refine ⟨⟨shaken.options, shaken.plugins, anchored.standing.rests.hover true⟩, ?_,
    shaken.plotted, shaken.accepts⟩
  intro index hovered
  have there : e.scene.cursor.index = some index := hovered
  obtain ⟨_, pitch, centre, found, placed⟩ := anchored.seated index there
  obtain ⟨_, _, _, furnished, _⟩ := anchored.standing.rests.band
  have shown := hover_furnished (e := e)
    ⟨furnished.handle, furnished.bindings, furnished.crosshair, placed⟩ true
  rw [there] at shown
  exact ⟨rfl, pitch, centre, found, shown.elements⟩

/-- A column that is pointed at is drawn somewhere; if it was hovered before, nothing moves. -/
theorem Anchored.move (anchored : e.Anchored o) (x y : Rat) : (e.turn (.move x y)).Ready := by
  obtain ⟨scene, memory, beneath⟩ := turn_move e x y
  intro index hovered
  rw [scene] at hovered ⊢
  obtain ⟨pitch, centre, drawn⟩ := e.scene.indexAt_column x y index hovered
  refine ⟨beneath, ⟨pitch, centre, drawn⟩, ?_⟩
  intro before
  rw [memory] at before
  have there := anchored.standing.rests.hovers before
  obtain ⟨inside, pitch', centre', found', placed⟩ := anchored.seated index there
  have same : e.arrive = e := if_pos inside
  refine ⟨pitch', centre', ?_, ?_⟩
  · rw [scene]
    exact found'
  · rw [scene]
    change e.arrive.surfaces.under.elements = _
    rw [same]
    exact placed

theorem Anchored.call (anchored : e.Anchored o) (c : Call Rat) :
    (e.call c).engine.Anchored o := by
  rw [call_eq]
  cases refused : e.refusal c with
  | some fault => exact anchored
  | none =>
      have shaken := anchored.turn c
      cases c with
      | enter =>
          exact anchored.enter.repaintIfDirty.anchored shaken.options
            (turn_settled anchored.settled .enter rfl)
      | move x y =>
          exact shaken.announce (turn_settled anchored.settled _ rfl) (anchored.move x y)
      | leave =>
          exact shaken.announce (turn_settled anchored.settled .leave rfl) (ready_away rfl)
      | setData data => exact shaken.renew rfl
      | setWindow first last =>
          obtain ⟨w, _, same⟩ := window_look e first last refused
          exact shaken.renew (by rw [same]; rfl)
      | resetWindow =>
          rcases reset_cases e with ⟨empty, same⟩ | ⟨filled, w, same⟩
          · rw [same, follow, if_pos empty]
            exact anchored
          · rw [same] at shaken ⊢
            rw [follow, if_neg (show (e.look w).scene.data.length ≠ 0 from filled)]
            exact shaken.renew rfl
      | render =>
          change e.render.engine.Anchored o
          rw [render_standard anchored.standing.plugins]
          exact anchored.toPoised.pass fun _ => settled_resolve anchored.settled

theorem Anchored.run (anchored : e.Anchored o) (calls : List (Call Rat)) :
    (e.run calls).Anchored o := by
  induction calls generalizing e with
  | nil => exact anchored
  | cons c rest ih => exact ih (anchored.call c)

/-! ### Reachable engines -/

variable {backend : Backend ρ Rat} {screen : ρ} {data : Dataset Rat}

theorem laid_plotted {first : Engine Band ρ Rat}
    (start : LaidOut backend screen (.standard o) data first) : first.scene.Plotted := by
  have scene := start.scene
  obtain ⟨canvas, _, _, wide, tall⟩ := Box.ofViewport_eq_ok start.box
  have ratio := first.options.check_ratio start.options
  rw [Scalar.zero_rat, not_le] at wide tall
  refine ⟨?_, ?_, wide, tall⟩
  · rw [scene]
    exact canvas
  · rw [scene]
    exact ratio

theorem laid_poised {first : Engine Band ρ Rat} (accepts : backend.Accepts)
    (start : LaidOut backend screen (.standard o) data first) :
    first.resolveScales.furnish.Poised o ∧
      first.resolveScales.furnish.scene.cursor.index = none := by
  obtain ⟨standard, options, _⟩ := start.standard
  have plotted := laid_plotted start
  have away : first.resolveScales.furnish.scene.cursor.index = none :=
    show first.scene.cursor.index = none from laid_away start
  refine ⟨⟨⟨options, standard, furnish_rests start⟩, seated_away away, ?_,
    start.backend.symm ▸ accepts⟩, away⟩
  exact ⟨plotted.viewport, plotted.ratio, plotted.wide, plotted.tall⟩

theorem opened_anchored (accepts : backend.Accepts)
    (opened : openWith backend screen (.standard o) data = .opened e) : e.Anchored o := by
  obtain ⟨first, start, done⟩ := opened_cases opened
  obtain ⟨poised, away⟩ := laid_poised accepts start
  rw [opening_standard start.standard.1] at done
  have anchored := poised.pass fun hovered => absurd away hovered
  rwa [done] at anchored

section Rectangle
variable (o : Options Rat) {s : Scene Rat} (ratio : s.pixelRatio ≠ 0) (pitch centre : Rat)
include ratio

/-- Placed in page pixels and painted in device pixels, the band has the centre of its column. -/
theorem bandRect_centre :
    (bandRect o s (BandLook.element true (BandLook.placement s pitch centre).1
      (BandLook.placement s pitch centre).2)).centerX = centre := by
  have home : (centre - s.box.left) / s.pixelRatio * s.pixelRatio = centre - s.box.left :=
    div_mul_cancel₀ _ ratio
  simp only [bandRect, BandLook.element, BandLook.placement, Rect.centerX, Scalar.two_rat]
  linear_combination home

theorem bandRect_width :
    (bandRect o s (BandLook.element true (BandLook.placement s pitch centre).1
      (BandLook.placement s pitch centre).2)).width = pitch :=
  div_mul_cancel₀ pitch ratio

end Rectangle

/-- The highlight always sits on the hovered column, however often it was set up, whatever was
called, and whether the calls failed or not: there is one band, hidden while no column is hovered;
else the under layer on the screen is the band, on the column, over the height of the plot, and the
cells of the column, of any style, have the same centre. -/
theorem band_on_hovered_column (accepts : backend.Accepts) (more : Nat)
    (opened : openWith backend screen (.repeated (more + 1) o) data = .opened e)
    (calls : List (Call Rat)) :
    ∃ band, (e.run calls).surfaces.under.elements = [band] ∧
      (e.run calls).surfaces.pointer.bindings = [0] ∧
      ((e.run calls).scene.cursor.index = none → band.visible = false) ∧
      ∀ index, (e.run calls).scene.cursor.index = some index → band.visible = true ∧
        ∃ rect : Rect Rat,
          (Display.blank.after (openFrames backend screen (.repeated (more + 1) o) data ++
            e.runFrames calls)).under = { Layer.blank .under with rects := [rect] } ∧
          (e.run calls).scene.columnPixel? index = some rect.centerX ∧
          (e.run calls).scene.pitch? = some rect.width ∧
          rect.y = (e.run calls).scene.box.top ∧ rect.height = (e.run calls).scene.box.height ∧
          ∀ (style : LadderStyle Rat) (c : Cell Rat), c ∈ style.cells (e.run calls).scene →
            c.index = index → c.rect.centerX = rect.centerX := by
  rw [Config.repeated_standard] at opened ⊢
  have anchored := (opened_anchored accepts opened).run calls
  obtain ⟨_, tracked⟩ := reach_tracked opened calls
  have shown : (Display.blank.after (openFrames backend screen (.standard o) data ++
      e.runFrames calls)).under =
        underInk (e.run calls).options (e.run calls).scene (e.run calls).surfaces.under :=
    (tracked.shown anchored.clean).under
  generalize Display.blank.after _ = display at shown ⊢
  generalize e.run calls = reached at anchored shown ⊢
  obtain ⟨visible, offset, width, furnished, hidden⟩ := anchored.standing.rests.band
  refine ⟨_, furnished.elements, furnished.bindings, hidden, ?_⟩
  intro index hovered
  obtain ⟨_, pitch, centre, found, placed⟩ := anchored.seated index hovered
  obtain ⟨wide, drawn⟩ := (BandLook.column_iff _ _ _ _).mp found
  have ratio := anchored.plotted.ratio.ne'
  -- stored in page pixels, the band is painted where the column is: the ratio goes in and out
  have centred := bandRect_centre reached.options ratio pitch centre
  have asWide := bandRect_width reached.options ratio pitch centre
  have lit : visible = true := by
    have same := furnished.elements.symm.trans placed
    simp only [BandLook.element, List.cons.injEq, Element.mk.injEq] at same
    exact same.1.2.2.1
  refine ⟨lit, _, ?_, drawn.trans (congrArg some centred.symm),
    wide.trans (congrArg some asWide.symm), rfl, rfl, ?_⟩
  · rw [shown, underInk, placed]
    rfl
  · intro style c member same
    obtain ⟨_, centre', _, drawn', left, broad, _⟩ := style.mem_cells reached.scene c member
    rw [same, drawn, Option.some.injEq] at drawn'
    rw [centred, drawn', Rect.centerX, left, broad]
    exact sub_add_cancel _ _

def repeatedChart : Opening Band (Recorder Rat) Rat :=
  openWith Recorder.backend .fresh (.repeated 3 .standard) gappedColumns

/-- After a zoom the pointer is over the column that has no ladder. -/
theorem band_on_gapped_column : ∃ e band rect, repeatedChart = .opened e ∧
    (e.run [.setWindow 0 1, .move 1300.0 100.0]).scene.cursor.index = some 1 ∧
    (e.run [.setWindow 0 1, .move 1300.0 100.0]).surfaces.under.elements = [band] ∧
    band.visible = true ∧
    (Display.blank.after (openFrames Recorder.backend .fresh (.repeated 3 .standard) gappedColumns ++
      e.runFrames [.setWindow 0 1, .move 1300.0 100.0])).under =
        { Layer.blank .under with rects := [rect] } ∧
    (e.run [.setWindow 0 1, .move 1300.0 100.0]).scene.columnPixel? 1 = some rect.centerX := by
  have evaluated : repeatedChart.passes (fun e =>
      decide ((e.run [.setWindow 0 1, .move 1300.0 100.0]).scene.cursor.index = some 1)) = true := by
    decide +kernel
  obtain ⟨e, opened, test⟩ := (Opening.passes_iff _ _).mp evaluated
  have hovered := of_decide_eq_true test
  obtain ⟨band, one, _, _, seated⟩ := band_on_hovered_column Recorder.accepts 2 opened
    [.setWindow 0 1, .move 1300.0 100.0]
  obtain ⟨lit, rect, shown, centred, _⟩ := seated 1 hovered
  exact ⟨e, band, rect, opened, hovered, one, lit, shown, centred⟩

end Engine
end LadderChart
