import LadderChart.Proofs.Engine.Aim
import LadderChart.Proofs.Engine.Refusal
import LadderChart.Proofs.Plot.Spans

/-!
What the standard chart draws over doubles. Valid data are stored by an update, and it fails exactly
if something that it draws has no finite place. Where the ranges enclose what is shown and no span
overflows, this cannot happen: no call fails, and every frame passes its check, with the highlight
on the hovered column or without it.
-/

namespace LadderChart

/-! ### The band -/

/-- Where the band stands is moderate, and its width is not negative. -/
structure Seat (offset width : Float) : Prop where
  along : Within (2 ^ 84) offset
  broad : Within (2 ^ 70) width
  wide : 0 ≤ Scalar.value width

theorem Seat.of_beq {offset width offset' width' : Float} (seat : Seat offset' width')
    (sameOffset : (offset == offset') = true) (sameWidth : (width == width') = true) :
    Seat offset width := by
  obtain ⟨finite, value⟩ := value_of_beq sameOffset seat.along.finite
  obtain ⟨finite', value'⟩ := value_of_beq sameWidth seat.broad.finite
  refine ⟨⟨finite, ?_⟩, ⟨finite', ?_⟩, ?_⟩
  · rw [value]
    exact seat.along.size
  · rw [value']
    exact seat.broad.size
  · rw [value']
    exact seat.wide

/-- A band that is placed where it is already stays as it was; either way it gets its place. -/
theorem UnderLayer.place_seat {u : UnderLayer Float} {visible : Bool} {before width₀ : Float}
    (single : u.elements = [BandLook.element visible before width₀]) {offset width : Float}
    (seat : Seat offset width) : ∃ offset' width', Seat offset' width' ∧
      (u.place 0 offset width).elements = [BandLook.element visible offset' width'] := by
  rw [place, update_single u _ single]
  split
  · exact ⟨offset, width, seat, rfl⟩
  · rename_i still
    simp only [BandLook.element, Bool.or_eq_true, Bool.not_eq_true', not_or,
      Bool.not_eq_false] at still
    exact ⟨before, width₀, seat.of_beq still.1 still.2, rfl⟩

section Places
variable {s : Scene Float} (charted : s.Charted)
include charted

theorem Scale.pitch_within {w : Window} (words : w.span ≤ Scalar.largestIndex) :
    Within (2 ^ 33) (pitch w s.box) ∧ 0 ≤ Scalar.value (pitch w s.box) := by
  have count := ofNat_rounded (max w.span 1)
  have inside := word_inside (max_le words (by decide : 1 ≤ Scalar.largestIndex))
  have finite := count.finite_iff.mpr inside
  have least := count.ge_of_ge inside within_one.finite (by
    rw [value_float_one]
    exact_mod_cast le_max_right w.span 1)
  rw [value_float_one] at least
  have within := charted.width.div finite one_pos (least.trans (le_abs_self _)) (by norm_num)
  have quotient := div_rounded charted.width.finite finite (zero_lt_one.trans_le least).ne'
  refine ⟨within.mono (by norm_num), ?_⟩
  exact quotient.nonneg (quotient.finite_iff.mp within.finite)
    (div_nonneg charted.wide.le (zero_le_one.trans least))

theorem placement_seat {pitch centre : Float} (broad : Within (2 ^ 33) pitch)
    (nonneg : 0 ≤ Scalar.value pitch) (drawn : Within (2 ^ 42) centre) :
    Seat (BandLook.placement s pitch centre).1 (BandLook.placement s pitch centre).2 := by
  have pos : (0 : ℚ) < 1 / 2 ^ 34 := by norm_num
  have least := charted.fine.trans (le_abs_self _)
  have width := broad.div charted.ratio.finite pos least (by norm_num)
  have across := (drawn.sub charted.left (by norm_num)).div charted.ratio.finite pos least
    (by norm_num)
  have quotient := div_rounded broad.finite charted.ratio.finite charted.ratio_pos.ne'
  constructor
  · exact (across.sub (width.half (by norm_num)) (by norm_num)).mono (by norm_num)
  · exact width.mono (by norm_num)
  · exact quotient.nonneg (quotient.finite_iff.mp width.finite)
      (div_nonneg nonneg charted.ratio_pos.le)

theorem bandRect_seat (o : Options Float) (visible : Bool) {offset width : Float}
    (seat : Seat offset width) :
    (Engine.bandRect o s (BandLook.element visible offset width)).check = .ok () := by
  have left := charted.left.add (seat.along.mul charted.ratio (by norm_num)) (by norm_num)
  have scaled := seat.broad.mul charted.ratio (by norm_num)
  have product := mul_rounded seat.broad.finite charted.ratio.finite
  have wide := product.nonneg (product.finite_iff.mp scaled.finite)
    (mul_nonneg seat.wide charted.ratio_pos.le)
  have fill : (BandLook.standardFill : Color Float).check = .ok () := by decide
  rw [Rect.check_eq_ok]
  refine ⟨⟨left.finite, charted.top.finite⟩, ⟨scaled.finite, charted.height.finite, ?_, ?_⟩, fill⟩
  · exact (zero_le_iff scaled.finite).mpr wide
  · exact (zero_le_iff charted.height.finite).mpr charted.tall.le

end Places

/-! ### Hovered columns -/

theorem Scene.indexAt_axis {α : Type} [Scalar α] (s : Scene α) (x y : α) (index : Nat)
    (found : s.indexAt? x y = some index) : (∃ bounds, s.xScale.range = some bounds) ∧
      ∃ v, Scale.domainValue? s.xScale.distribution index s.data.series = some v := by
  obtain ⟨w, shown, _⟩ := s.indexAt_inside x y index found
  simp only [indexAt?, shown] at found
  split at found
  · obtain ⟨value, reads, hit⟩ := Option.bind_eq_some_iff.mp found
    refine ⟨?_, Hit.column_valued _ _ w value index hit⟩
    cases range : s.xScale.range with
    | none => simp [Scale.value?, range] at reads
    | some bounds => exact ⟨bounds, rfl⟩
  · cases found

namespace Engine
variable {o : Options Float} {e : Engine Band (Recorder Float) Float}

/-- If a column is hovered where everything has a finite place, so has the band. -/
def Fitted (e : Engine Band (Recorder Float) Float) : Prop :=
  ∀ index, e.scene.cursor.index = some index → e.scene.Enclosed → e.scene.Spanned →
    ∃ visible offset width, Seat offset width ∧
      e.surfaces.under.elements = [BandLook.element visible offset width]

theorem fitted_away (away : e.scene.cursor.index = none) : e.Fitted := by
  intro index hovered
  rw [away] at hovered
  cases hovered

theorem Fitted.same {e' : Engine Band (Recorder Float) Float} (fitted : e.Fitted)
    (band : SameBand e e') (scene : e'.scene = e.scene) : e'.Fitted := by
  intro index hovered enclosed spanned
  rw [scene] at hovered enclosed spanned
  obtain ⟨visible, offset, width, seat, elements⟩ := fitted index hovered enclosed spanned
  exact ⟨visible, offset, width, seat, band.elements.trans elements⟩

theorem Fitted.hover (fitted : e.Fitted) (rests : e.Rests) (hovered : Bool) :
    (e.hover hovered).Fitted := by
  intro index there enclosed spanned
  obtain ⟨_, offset, width, seat, elements⟩ := fitted index there enclosed spanned
  obtain ⟨_, _, _, furnished, _⟩ := rests.band
  have shown := hover_furnished (e := e)
    ⟨furnished.handle, furnished.bindings, furnished.crosshair, elements⟩ hovered
  exact ⟨_, offset, width, seat, shown.elements⟩

theorem Sound.column_found (sound : e.Sound)
    (words : e.scene.data.length ≤ Scalar.largestIndex) {index : Nat}
    (hovered : e.scene.cursor.index = some index) (ranged : ∃ bounds, e.scene.xScale.range = some bounds)
    (valued : ∃ v, Scale.domainValue? e.scene.xScale.distribution index e.scene.data.series =
      some v) : ∃ w pitch centre, e.scene.window = some w ∧ w.contains index = true ∧
        w.span ≤ Scalar.largestIndex ∧ pitch = Scale.pitch w e.scene.box ∧
        BandLook.column? e.scene (some index) = some (pitch, centre) := by
  have valid := (Dataset.check_eq_ok e.scene.data).mp sound.data
  obtain ⟨⟨w, shown, inside⟩, _⟩ := sound.cursor index hovered
  obtain ⟨⟨low, high⟩, range⟩ := ranged
  obtain ⟨v, value⟩ := valued
  have fits := sound.window_inside w shown
  have last := ((w.contains_iff index).mp inside).2
  have finite : Scalar.isFinite v = true := by
    cases spacing : e.scene.xScale.distribution with
    | ordinal =>
        rw [spacing] at value
        cases value
        exact Scalar.Ordered.finite_ofNat (by omega)
    | linear =>
        rw [spacing] at value
        exact valid.series v (List.mem_of_getElem? value)
  have short : w.span ≤ w.last := Nat.sub_le _ _
  refine ⟨w, _, Scale.place .x e.scene.box (Scale.fraction low high v), shown, inside, by omega, rfl, ?_⟩
  rw [BandLook.column_iff]
  constructor
  · rw [Scene.pitch?, shown]
    rfl
  · simp only [Scene.columnPixel?, value, Option.bind_some, Scale.pixel?, range, finite, if_true]

/-- Told about a hovered column, the highlight takes its place, unless it has it already. -/
theorem tell_fitted (stirred : e.Stirred) (charted : e.scene.Charted) (sound : e.Sound)
    (words : e.scene.data.length ≤ Scalar.largestIndex)
    (drawn : ∀ index, e.scene.cursor.index = some index →
      (∃ bounds, e.scene.xScale.range = some bounds) ∧
        ∃ v, Scale.domainValue? e.scene.xScale.distribution index e.scene.data.series = some v)
    (before : e.memory.lastIndex = some e.scene.cursor.index → e.Fitted) : e.tell.Fitted := by
  by_cases seen : e.memory.lastIndex = some e.scene.cursor.index
  · rw [tell_seen seen]
    exact before seen
  · intro index hovered enclosed spanned
    have there : e.scene.cursor.index = some index := hovered
    obtain ⟨visible, offset, width, furnished, _⟩ := stirred
    obtain ⟨ranged, valued⟩ := drawn index there
    obtain ⟨w, pitch, centre, shown, inside, short, rfl, found⟩ :=
      sound.column_found words there ranged valued
    have middle := Scene.columnPixel_within charted enclosed spanned shown inside
      ((BandLook.column_iff _ _ _ _).mp found).2
    have broad := Scale.pitch_within charted short
    obtain ⟨offset', width', seat, placed⟩ :=
      UnderLayer.place_seat furnished.elements (placement_seat charted broad.1 broad.2 middle)
    rw [tell_places seen furnished.handle _ _ (there ▸ found)]
    exact ⟨_, offset', width', seat, UnderLayer.setVisible_single _ _ placed _⟩

/-! ### Frames -/

structure Prepared (o : Options Float) (e : Engine Band (Recorder Float) Float) : Prop where
  standing : e.Standing o
  recorder : e.backend = Recorder.backend
  charted : e.scene.Charted
  fitted : e.Fitted

/-- A frame was handed over if there was need for one; the scales are settled, and if they enclose
what is shown and no span overflows, the frame is good. -/
structure Drawn (o : Options Float) (outcome : Outcome Band (Recorder Float) Float)
    (frames : List (Handover Float)) : Prop where
  prepared : outcome.engine.Prepared o
  settled : outcome.engine.scene.ScaledOn outcome.engine.options outcome.engine.scene.basis
  fine : outcome.engine.scene.Enclosed → outcome.engine.scene.Spanned →
    outcome.fault = none ∧ ∀ h ∈ frames, h.frame.check = .ok ()

namespace Prepared
variable (prepared : e.Prepared o)
include prepared

theorem under_check (enclosed : e.scene.Enclosed) (spanned : e.scene.Spanned) :
    (underInk e.options e.scene e.surfaces.under).check = .ok () := by
  obtain ⟨visible, offset, width, furnished, hidden⟩ := prepared.standing.rests.band
  cases hovered : e.scene.cursor.index with
  | none =>
      simp only [underInk, furnished.elements, hidden hovered, BandLook.element]
      rfl
  | some index =>
      obtain ⟨shown, offset', width', seat, elements⟩ :=
        prepared.fitted index hovered enclosed spanned
      cases shown with
      | false =>
          rw [underInk, elements]
          rfl
      | true =>
          have rect := bandRect_seat prepared.charted e.options true seat
          rw [underInk, elements, Layer.check_eq_ok]
          exact ⟨by simp [Layer.blank], List.forall_mem_singleton.mpr rect, by simp [Layer.blank]⟩

theorem accepted (answer : Recorder Float × Option Fault) :
    (e.accepted answer).engine.Prepared o := by
  have steady := accepted_steady e answer
  have band := accepted_sameBand e answer
  have scene := accepted_scene e answer
  refine ⟨⟨?_, ?_, prepared.standing.rests.same band⟩, ?_, ?_, prepared.fitted.same band scene⟩
  · exact steady.options.trans prepared.standing.options
  · exact steady.plugins.trans prepared.standing.plugins
  · exact steady.backend.trans prepared.recorder
  · rw [scene]
    exact prepared.charted

theorem hand (settled : e.scene.ScaledOn e.options e.scene.basis)
    (answer : Recorder Float × Option Fault) (handed : Handover Float)
    (fine : e.scene.Enclosed → e.scene.Spanned →
      answer.2 = none ∧ handed.frame.check = .ok ()) : Drawn o (e.accepted answer) [handed] := by
  have scene := accepted_scene e answer
  refine ⟨prepared.accepted answer, ?_, ?_⟩
  · rw [scene, (accepted_steady e answer).options]
    exact settled
  · intro enclosed spanned
    rw [scene] at enclosed spanned
    obtain ⟨none, good⟩ := fine enclosed spanned
    exact ⟨(accepted_fault e answer).trans none, List.forall_mem_singleton.mpr good⟩

theorem repaint (settled : e.scene.ScaledOn e.options e.scene.basis) :
    Drawn o e.repaintIfDirty e.repaintFrames := by
  unfold repaintIfDirty repaintFrames
  split
  · refine prepared.hand settled _ _ ?_
    intro enclosed spanned
    have frame := overlayFrame_check prepared.charted.viewport
      (prepared.under_check enclosed spanned) prepared.standing.rests.upper_check
    rw [prepared.recorder, (Recorder.answers _ _).2]
    exact ⟨frame, frame⟩
  · exact ⟨prepared, settled, fun _ _ => ⟨rfl, by simp⟩⟩

/-- A full pass. If a column stays hovered over it, the scales must have been settled before. -/
theorem pass (still : e.scene.cursor.index ≠ none → e.resolveScales.scene = e.scene) :
    Drawn o e.sketch.paint e.sketch.paintFrames := by
  have charted : e.resolveScales.scene.Charted := prepared.charted.same rfl rfl rfl
  have sketched : e.sketch.Prepared o := by
    refine ⟨⟨prepared.standing.options, prepared.standing.plugins,
      prepared.standing.rests.same (sketch_sameBand e)⟩, prepared.recorder, charted, ?_⟩
    intro index hovered
    have there : e.scene.cursor.index = some index := hovered
    have scene : e.sketch.scene = e.scene := still (by simp [there])
    rw [scene]
    exact prepared.fitted index there
  refine sketched.hand (resolve_scaled e) _ _ ?_
  intro enclosed spanned
  have placeable := Scene.placeable charted enclosed spanned e.options
  have frame := fullFrame_check sketched.charted.viewport (sketched.under_check enclosed spanned)
    (picture_fits charted.framed placeable).ink sketched.standing.rests.upper_check
  rw [sketched.recorder, (Recorder.answers _ _).1]
  exact ⟨frame, frame⟩

end Prepared

/-! ### Calls -/

/-- What holds between calls: besides, the scales belong to what is shown. -/
structure Calm (o : Options Float) (e : Engine Band (Recorder Float) Float) : Prop
    extends Prepared o e where
  settled : e.scene.ScaledOn e.options e.scene.basis
  sound : e.Sound
  words : e.scene.data.length ≤ Scalar.largestIndex

namespace Calm
variable (calm : e.Calm o) (c : Call Float)
include calm

theorem tell (fitted : (e.turn c).tell.Fitted) : (e.turn c).tell.Prepared o := by
  have same := turn_sameSetting e c
  have stirred := stirred_turn calm.standing.options calm.standing.rests c
  refine ⟨⟨?_, ?_, rests_tell stirred⟩, ?_, ?_, fitted⟩
  · exact same.options.trans calm.standing.options
  · exact same.plugins.trans calm.standing.plugins
  · exact same.backend.trans calm.recorder
  · exact calm.charted.same same.viewport same.pixelRatio same.box

theorem standard : (e.turn c).Standard :=
  (turn_sameSetting e c).plugins.trans calm.standing.plugins

theorem renew (away : (e.turn c).scene.cursor.index = none) :
    Drawn o (e.turn c).renew (e.turn c).renewFrames := by
  rw [renew_standard (calm.standard c), renewFrames_standard (calm.standard c)]
  exact (calm.tell c (fitted_away away)).pass fun hovered => absurd away hovered

theorem announce (still : e.updates c = false) (fitted : (e.turn c).tell.Fitted) :
    Drawn o (e.turn c).announce (e.turn c).announceFrames := by
  rw [announce_standard (calm.standard c), announceFrames_standard (calm.standard c)]
  exact (calm.tell c fitted).repaint (turn_settled calm.settled c still)

theorem enter : Drawn o (e.hover true).repaintIfDirty (e.hover true).repaintFrames := by
  have rests := calm.standing.rests
  have hovered : (e.hover true).Prepared o :=
    ⟨⟨calm.standing.options, calm.standing.plugins, rests.hover true⟩, calm.recorder,
      calm.charted, calm.fitted.hover rests true⟩
  exact hovered.repaint (turn_settled calm.settled .enter rfl)

theorem move (x y : Float) : (e.turn (.move x y)).tell.Fitted := by
  obtain ⟨scene, memory, _⟩ := turn_move e x y
  have stirred := stirred_turn calm.standing.options calm.standing.rests (.move x y)
  have charted : (e.turn (.move x y)).scene.Charted := by
    rw [scene]
    exact calm.charted.same rfl rfl rfl
  refine tell_fitted stirred charted (sound_turn calm.sound (.move x y) rfl) ?_ ?_ ?_
  · rw [scene]
    exact calm.words
  · rw [scene]
    intro index found
    exact e.scene.indexAt_axis x y index found
  · intro seen index hovered enclosed spanned
    -- the scales are those of before, so the band has a seat there already
    rw [memory, hovered] at seen
    have there := calm.standing.rests.hovers seen
    rw [scene] at enclosed spanned
    obtain ⟨visible, offset, width, seat, elements⟩ := calm.fitted index there
      ⟨enclosed.xRange, enclosed.yRange, enclosed.columns, enclosed.rungs⟩
      ⟨spanned.x, spanned.y⟩
    have inside := (calm.sound.cursor index there).2.1
    have same : e.arrive = e := if_pos inside
    refine ⟨visible, offset, width, seat, ?_⟩
    change e.arrive.surfaces.under.elements = _
    rw [same]
    exact elements

theorem call (accepted : e.refusal c = none) : Drawn o (e.call c) (e.frames c) := by
  rw [call_eq, frames_eq, accepted]
  cases c with
  | enter => exact calm.enter
  | move x y => exact calm.announce (.move x y) rfl (calm.move x y)
  | leave => exact calm.announce .leave rfl (fitted_away rfl)
  | setData data => exact calm.renew (.setData data) rfl
  | setWindow first last =>
      obtain ⟨w, _, same⟩ := window_look e first last accepted
      exact calm.renew (.setWindow first last) (by rw [same]; rfl)
  | resetWindow =>
      have renewed := calm.renew .resetWindow
      rcases reset_cases e with ⟨empty, same⟩ | ⟨filled, w, same⟩
      · rw [same]
        simp only [follow, followFrames, if_pos empty]
        exact ⟨calm.toPrepared, calm.settled, fun _ _ => ⟨rfl, by simp⟩⟩
      · rw [same] at renewed ⊢
        have filled' : (e.look w).scene.data.length ≠ 0 := filled
        simp only [follow, followFrames, if_neg filled']
        exact renewed rfl
  | render =>
      change Drawn o e.render e.renderFrames
      rw [render_standard calm.standing.plugins, renderFrames_standard calm.standing.plugins]
      exact calm.pass fun _ => settled_resolve calm.settled

end Calm

/-! ### Reachable engines -/

section Reachable
variable {screen : Recorder Float} {data : Dataset Float}
  (opened : openWith Recorder.backend screen (.standard o) data = .opened e)
include opened

theorem opened_drawn : e.Prepared o ∧ e.scene.ScaledOn e.options e.scene.basis := by
  obtain ⟨first, start, done⟩ := opened_cases opened
  obtain ⟨standard, options, _⟩ := start.standard
  -- an engine opens with no column hovered, so its first pass needs no seat for the band
  have away : first.resolveScales.furnish.scene.cursor.index = none := by
    have away : first.scene.cursor.index = none := laid_away start
    exact away
  have charted : first.scene.Charted := start.charted ⟨rfl, rfl, rfl, rfl, rfl, rfl⟩
  have prepared : first.resolveScales.furnish.Prepared o :=
    ⟨⟨options, standard, furnish_rests start⟩, start.backend, charted.same rfl rfl rfl,
      fitted_away away⟩
  have drawn := prepared.pass fun hovered => absurd away hovered
  rw [opening_standard standard] at done
  rw [done] at drawn
  exact ⟨drawn.prepared, drawn.settled⟩

variable (words : data.length ≤ Scalar.largestIndex)
include words

theorem reach_calm (calls : List (Call Float))
    (fits : ∀ data, Call.setData data ∈ calls → data.length ≤ Scalar.largestIndex) :
    (e.run calls).Calm o := by
  have sound := reach_sound_words opened words calls fits
  -- the last call is taken off, so that the engine before it is a reachable one
  induction calls using List.reverseRecOn with
  | nil =>
      obtain ⟨prepared, settled⟩ := opened_drawn opened
      exact ⟨prepared, settled, sound.1, sound.2⟩
  | append_singleton before c ih =>
      have shorter : ∀ data, Call.setData data ∈ before → data.length ≤ Scalar.largestIndex :=
        fun data member => fits data (List.mem_append_left [c] member)
      have calm := ih shorter (reach_sound_words opened words before shorter)
      rw [run_append] at sound ⊢
      cases refused : (e.run before).refusal c with
      | some fault =>
          have same : (e.run before).run [c] = e.run before := by
            simp only [run, call_eq, refused]
          rw [same]
          exact calm
      | none =>
          have drawn := calm.call c refused
          exact ⟨drawn.prepared, drawn.settled, sound.1, sound.2⟩

/-- What an update draws has finite places exactly if it ends well. -/
theorem setData_fault_iff (calls : List (Call Float))
    (fits : ∀ data, Call.setData data ∈ calls → data.length ≤ Scalar.largestIndex)
    (other : Dataset Float) (valid : other.check = .ok ()) :
    ((e.run calls).call (.setData other)).fault = none ↔
      ((e.run calls).call (.setData other)).engine.scene.Placeable (e.run calls).options := by
  have calm := reach_calm opened words calls fits
  have accepted : (e.run calls).refusal (.setData other) = none := by
    simp only [refusal, valid]
  have told := calm.tell (.setData other) (fitted_away rfl)
  have stirred := stirred_turn calm.standing.options calm.standing.rests (.setData other)
  have fault := renew_fault_iff (calm.standard _) stirred rfl told.recorder told.charted
  have scene := (renew_state (calm.standard (.setData other))).1
  rw [call_eq, accepted]
  change _ ↔ ((e.run calls).turn (.setData other)).renew.engine.scene.Placeable _
  rw [scene]
  exact fault

theorem call_enclosed (calls : List (Call Float))
    (fits : ∀ data, Call.setData data ∈ calls → data.length ≤ Scalar.largestIndex)
    (ranged : o.Ranged) (c : Call Float)
    (short : ∀ data, c = .setData data → data.length ≤ Scalar.largestIndex) :
    ((e.run calls).call c).engine.scene.Enclosed := by
  have calm := reach_calm opened words (calls ++ [c]) (by
    intro data member
    rcases List.mem_append.mp member with before | last
    · exact fits data before
    · exact short data (List.mem_singleton.mp last).symm)
  rw [run_append] at calm
  refine calm.sound.enclosed calm.words calm.settled ?_
  rw [calm.standing.options]
  exact ranged

end Reachable

/-- Valid data are stored, and then what can go wrong is that a label or a cell has no finite place.
A value in a range has a finite pixel exactly if its distance from the low end does not overflow. So
nothing goes wrong where the ranges are taken from the data, or enclose what is shown of them, as
long as no span overflows: then no call fails, and every frame passes its check. -/
theorem drawn_unless_span_overflows {screen : Recorder Float} {data : Dataset Float}
    (opened : openWith Recorder.backend screen (.standard o) data = .opened e)
    (words : data.length ≤ Scalar.largestIndex) (calls : List (Call Float))
    (fits : ∀ data, Call.setData data ∈ calls → data.length ≤ Scalar.largestIndex) :
    (∀ other : Dataset Float, other.check = .ok () →
      ((e.run calls).call (.setData other)).engine.scene.data = other ∧
      (((e.run calls).call (.setData other)).fault = none ↔
        ((e.run calls).call (.setData other)).engine.scene.Placeable (e.run calls).options)) ∧
    (∀ (scale : Scale Float) (axis : Axis) (low high x : Float), scale.range = some (low, high) →
      low.isFinite = true → high.isFinite = true → x.isFinite = true → low ≤ x → x ≤ high →
      ∃ p, scale.pixel? axis (e.run calls).scene.box x = some p ∧
        (p.isFinite = true ↔ (x - low).isFinite = true)) ∧
    ∀ c, (e.run calls).refusal c = none →
      (∀ data, c = .setData data → data.length ≤ Scalar.largestIndex) →
      o.Ranged ∨ ((e.run calls).call c).engine.scene.Enclosed →
      ((e.run calls).call c).engine.scene.Spanned →
        ((e.run calls).call c).fault = none ∧
          ∀ h ∈ (e.run calls).frames c, h.frame.check = .ok () := by
  have calm := reach_calm opened words calls fits
  refine ⟨?_, ?_, ?_⟩
  · intro other valid
    exact ⟨setData_stored _ other valid, setData_fault_iff opened words calls fits other valid⟩
  · intro scale axis low high x range finiteLow finiteHigh finite above below
    have finite' : Scalar.isFinite x = true := finite
    refine ⟨Scale.place axis (e.run calls).scene.box (Scale.fraction low high x), ?_, ?_⟩
    · simp only [Scale.pixel?, range, finite', if_true]
    · exact Scale.place_finite_iff calm.charted axis finiteLow finiteHigh finite above below
  · intro c accepted short enclosing spanned
    -- ranges taken from the data enclose it without being asked to
    have enclosed : ((e.run calls).call c).engine.scene.Enclosed := by
      rcases enclosing with ranged | enclosed
      · exact call_enclosed opened words calls fits ranged c short
      · exact enclosed
    exact (calm.call c accepted).fine enclosed spanned

def wideColumns : Dataset Float :=
  .dense [-1.7e308, 1.7e308] [[10.0], [20.0]] [[1.0], [2.0]] ⟨0.0, 2.0⟩

/-- Valid data whose span overflows: they are stored, and then the first cell has no place. -/
theorem wide_columns_stuck : ∃ e, twoColumnChart = .opened e ∧ wideColumns.check = .ok () ∧
    (e.call (.setData wideColumns)).fault = some (.data .rectOrigin) ∧
    (e.call (.setData wideColumns)).engine.scene.data = wideColumns := by
  have evaluated : twoColumnChart.passes (fun e =>
      decide ((e.call (.setData wideColumns)).fault = some (.data .rectOrigin)) &&
        decide ((e.call (.setData wideColumns)).engine.scene.data = wideColumns)) = true := by
    decide +kernel
  obtain ⟨e, opened, test⟩ := (Opening.passes_iff _ _).mp evaluated
  rw [Bool.and_eq_true, decide_eq_true_iff, decide_eq_true_iff] at test
  exact ⟨e, opened, by decide +kernel, test.1, test.2⟩

/-- After the update that got stuck, and with the pointer over the second column, other data are
drawn again. -/
theorem gapped_columns_drawn : ∃ e, twoColumnChart = .opened e ∧
    (e.run [.setData wideColumns, .move 1300.0 100.0]).scene.data = wideColumns ∧
    ((e.run [.setData wideColumns, .move 1300.0 100.0]).call (.setData gappedColumns)).fault = none ∧
    ∀ h ∈ (e.run [.setData wideColumns, .move 1300.0 100.0]).frames (.setData gappedColumns),
      h.frame.check = .ok () := by
  have evaluated : twoColumnChart.passes (fun e =>
      let reached := e.run [.setData wideColumns, .move 1300.0 100.0]
      let scene := (reached.call (.setData gappedColumns)).engine.scene
      decide (reached.scene.data = wideColumns) &&
        decide (scene.xScale.range = some (3.0, 6.0)) &&
        decide (scene.yScale.range = some (5.0, 9.0))) = true := by
    decide +kernel
  obtain ⟨e, opened, test⟩ := (Opening.passes_iff _ _).mp evaluated
  simp only [Bool.and_eq_true, decide_eq_true_iff] at test
  obtain ⟨⟨stored, x⟩, y⟩ := test
  have short : ∀ data, Call.setData data ∈ [.setData wideColumns, .move 1300.0 100.0] →
      data.length ≤ Scalar.largestIndex := by
    intro data member
    simp only [List.mem_cons, Call.setData.injEq, reduceCtorEq, or_false, List.not_mem_nil]
      at member
    rw [member]
    decide
  obtain ⟨_, _, drawn⟩ := drawn_unless_span_overflows opened (by decide) _ short
  have fine := drawn (.setData gappedColumns) rfl (by rintro _ ⟨rfl⟩; decide)
    (.inl (Options.ladder_ranged _ _ _)) (by
      constructor
      · intro low high range
        rw [x] at range
        cases range
        decide
      · intro low high range
        rw [y] at range
        cases range
        decide)
  exact ⟨e, opened, stored, fine⟩

end Engine
end LadderChart
