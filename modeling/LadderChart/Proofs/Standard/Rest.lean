import LadderChart.Proofs.Standard.Hooks

/-!
The band of the standard chart between calls. There is one band, it is bound, and the highlight has
seen the cursor as it is; while no column is hovered the band is hidden. A turn may change the
cursor behind the back of the highlight, but being told makes up for it, and the work after that
touches neither.
-/

namespace LadderChart

section Single
variable {α : Type}

theorem UnderLayer.update_single (u : UnderLayer α) (e : Element α) (single : u.elements = [e])
    (differs : Element α → Bool) (change : Element α → Element α) :
    (u.update 0 differs change).elements = [if differs e then change e else e] := by
  have found : u.elements[0]? = some e := by rw [single]; rfl
  simp only [update, found]
  split
  · simp [single]
  · exact single

theorem UnderLayer.setVisible_single (u : UnderLayer α) (e : Element α) (single : u.elements = [e])
    (visible : Bool) : (u.setVisible 0 visible).elements = [{ e with visible := visible }] := by
  rw [setVisible, update_single u e single]
  cases same : e.visible != visible with
  | true => rfl
  | false =>
      have equal : e.visible = visible := by simpa using same
      rw [← equal]
      rfl

end Single

/-- The band as an element of the under layer. -/
def BandLook.element {α : Type} [Scalar α] (visible : Bool) (offset width : α) : Element α :=
  ⟨none, standardFill, visible, offset, width⟩

theorem BandLook.column_iff {α : Type} [Scalar α] (s : Scene α) (index : Nat) (pitch centre : α) :
    column? s (some index) = some (pitch, centre) ↔
      s.pitch? = some pitch ∧ s.columnPixel? index = some centre := by
  cases wide : s.pitch? with
  | none => simp [column?, wide]
  | some p => cases drawn : s.columnPixel? index <;> simp [column?, wide, drawn]

namespace Engine
variable {ρ α : Type} [Scalar α]

/-- There is one band, and no line of a crosshair. -/
structure Furnished (e : Engine Band ρ α) (visible : Bool) (offset width : α) : Prop where
  handle : e.memory.handle = some 0
  bindings : e.surfaces.pointer.bindings = [0]
  crosshair : e.surfaces.pointer.crosshair = []
  elements : e.surfaces.under.elements = [BandLook.element visible offset width]

/-- After a turn: the band may be out of date, but if it was hidden for want of a column it still
is. -/
def Stirred (e : Engine Band ρ α) : Prop :=
  ∃ visible offset width, e.Furnished visible offset width ∧
    (e.memory.lastIndex = some none → visible = false)

structure Rests (e : Engine Band ρ α) : Prop where
  band : ∃ visible offset width, e.Furnished visible offset width ∧
    (e.scene.cursor.index = none → visible = false)
  /-- Before the first event nothing was seen, and no column is hovered. -/
  seen : e.memory.lastIndex = some e.scene.cursor.index ∨
    e.memory.lastIndex = none ∧ e.scene.cursor.index = none

/-- What the band depends on. -/
structure SameBand (e e' : Engine Band ρ α) : Prop where
  memory : e'.memory = e.memory
  index : e'.scene.cursor.index = e.scene.cursor.index
  elements : e'.surfaces.under.elements = e.surfaces.under.elements
  bindings : e'.surfaces.pointer.bindings = e.surfaces.pointer.bindings
  crosshair : e'.surfaces.pointer.crosshair = e.surfaces.pointer.crosshair

variable {e e' : Engine Band ρ α}

theorem Furnished.same {visible : Bool} {offset width : α}
    (furnished : e.Furnished visible offset width) (same : SameBand e e') :
    e'.Furnished visible offset width where
  handle := same.memory ▸ furnished.handle
  bindings := same.bindings.trans furnished.bindings
  crosshair := same.crosshair.trans furnished.crosshair
  elements := same.elements.trans furnished.elements

theorem Rests.same (rests : e.Rests) (same : SameBand e e') : e'.Rests := by
  obtain ⟨visible, offset, width, furnished, hidden⟩ := rests.band
  refine ⟨⟨visible, offset, width, furnished.same same, ?_⟩, ?_⟩
  · rw [same.index]
    exact hidden
  · rw [same.index, same.memory]
    exact rests.seen

omit [Scalar α] in
theorem accepted_sameBand (e : Engine Band ρ α) (answer : ρ × Option Fault) :
    SameBand e (e.accepted answer).engine := by
  rcases accepted_cases e answer with ⟨_, _, same⟩ | ⟨_, _, same⟩
  · rw [same]
    exact ⟨rfl, rfl, rfl, rfl, rfl⟩
  · rw [same]
    exact ⟨rfl, rfl, rfl, rfl, rfl⟩

theorem sketch_sameBand (e : Engine Band ρ α) : SameBand e e.sketch := ⟨rfl, rfl, rfl, rfl, rfl⟩

omit [Scalar α] in
theorem SameBand.trans {e₁ e₂ e₃ : Engine Band ρ α} (a : SameBand e₁ e₂) (b : SameBand e₂ e₃) :
    SameBand e₁ e₃ where
  memory := b.memory.trans a.memory
  index := b.index.trans a.index
  elements := b.elements.trans a.elements
  bindings := b.bindings.trans a.bindings
  crosshair := b.crosshair.trans a.crosshair

theorem sketched_sameBand (e : Engine Band ρ α) : SameBand e e.sketch.paint.engine :=
  (sketch_sameBand e).trans (accepted_sameBand e.sketch _)

theorem repainted_sameBand (e : Engine Band ρ α) : SameBand e e.repaintIfDirty.engine := by
  unfold repaintIfDirty
  split
  · exact accepted_sameBand e _
  · exact ⟨rfl, rfl, rfl, rfl, rfl⟩

/-! ### Being told -/

theorem tell_seen (seen : e.memory.lastIndex = some e.scene.cursor.index) : e.tell = e := by
  simp only [tell, BandLook.setCursor, Slot.whole, id_eq, seen, if_true]
  rfl

theorem tell_hides (fresh : e.memory.lastIndex ≠ some e.scene.cursor.index)
    (handle : e.memory.handle = some 0)
    (nowhere : BandLook.column? e.scene e.scene.cursor.index = none) :
    e.tell = { e with
      memory := { e.memory with lastIndex := some e.scene.cursor.index }
      surfaces := e.surfaces.apply (.reveal 0 false) } := by
  simp only [tell, BandLook.setCursor, Slot.whole, id_eq, if_neg fresh, handle, nowhere]
  rfl

theorem tell_places (fresh : e.memory.lastIndex ≠ some e.scene.cursor.index)
    (handle : e.memory.handle = some 0) (pitch centre : α)
    (found : BandLook.column? e.scene e.scene.cursor.index = some (pitch, centre)) :
    e.tell = { e with
      memory := { e.memory with
        lastIndex := some e.scene.cursor.index, updates := e.memory.updates + 1 }
      surfaces := (e.surfaces.apply (.place 0 (BandLook.placement e.scene pitch centre).1
        (BandLook.placement e.scene pitch centre).2)).apply
          (.reveal 0 e.surfaces.pointer.hovered) } := by
  simp only [tell, BandLook.setCursor, Slot.whole, id_eq, if_neg fresh, handle, found]
  rfl

theorem rests_tell (stirred : e.Stirred) : e.tell.Rests := by
  obtain ⟨visible, offset, width, furnished, dark⟩ := stirred
  by_cases seen : e.memory.lastIndex = some e.scene.cursor.index
  · rw [tell_seen seen]
    refine ⟨⟨visible, offset, width, furnished, ?_⟩, .inl seen⟩
    intro away
    rw [away] at seen
    exact dark seen
  · cases found : BandLook.column? e.scene e.scene.cursor.index with
    | none =>
        rw [tell_hides seen furnished.handle found]
        refine ⟨⟨false, offset, width, ⟨furnished.handle, furnished.bindings,
          furnished.crosshair, ?_⟩, fun _ => rfl⟩, .inl rfl⟩
        exact UnderLayer.setVisible_single _ _ furnished.elements false
    | some column =>
        obtain ⟨pitch, centre⟩ := column
        rw [tell_places seen furnished.handle pitch centre found]
        -- where the band comes to stand is of no account here, only that a column is hovered
        obtain ⟨offset', width', placed⟩ : ∃ offset' width',
            (e.surfaces.under.place 0 (BandLook.placement e.scene pitch centre).1
              (BandLook.placement e.scene pitch centre).2).elements =
                [BandLook.element visible offset' width'] := by
          rw [UnderLayer.place, UnderLayer.update_single _ _ furnished.elements]
          split
          · exact ⟨_, _, rfl⟩
          · exact ⟨_, _, rfl⟩
        refine ⟨⟨e.surfaces.pointer.hovered, offset', width', ⟨furnished.handle,
          furnished.bindings, furnished.crosshair, ?_⟩, ?_⟩, .inl rfl⟩
        · exact UnderLayer.setVisible_single _ _ placed e.surfaces.pointer.hovered
        · intro away
          rw [show e.scene.cursor.index = none from away] at found
          cases found

/-! ### Turns -/

theorem hover_furnished {visible : Bool} {offset width : α}
    (furnished : e.Furnished visible offset width) (hovered : Bool) :
    (e.hover hovered).Furnished (hovered && e.scene.cursor.index.isSome) offset width := by
  refine ⟨furnished.handle, furnished.bindings, furnished.crosshair, ?_⟩
  change (e.surfaces.under.showAll (hovered && e.scene.cursor.index.isSome)
    e.surfaces.pointer.bindings).elements = _
  rw [furnished.bindings]
  exact UnderLayer.setVisible_single _ _ furnished.elements _

theorem Rests.stirred (rests : e.Rests) : e.Stirred := by
  obtain ⟨visible, offset, width, furnished, hidden⟩ := rests.band
  refine ⟨visible, offset, width, furnished, ?_⟩
  intro dark
  rcases rests.seen with seen | ⟨unseen, _⟩
  · exact hidden (Option.some.inj (seen.symm.trans dark))
  · rw [unseen] at dark
    cases dark

/-- The column that the highlight saw last is the hovered one. -/
theorem Rests.hovers {index : Nat} (rests : e.Rests)
    (saw : e.memory.lastIndex = some (some index)) : e.scene.cursor.index = some index := by
  rcases rests.seen with seen | ⟨never, _⟩
  · exact Option.some.inj (seen.symm.trans saw)
  · rw [never] at saw
    cases saw

theorem Rests.upper_check (rests : e.Rests) : (overInk e.surfaces.pointer).check = .ok () := by
  obtain ⟨_, _, _, furnished, _⟩ := rests.band
  rw [overInk, furnished.crosshair]
  rfl

theorem Rests.hover (rests : e.Rests) (hovered : Bool) : (e.hover hovered).Rests := by
  obtain ⟨visible, offset, width, furnished, _⟩ := rests.band
  refine ⟨⟨_, offset, width, hover_furnished furnished hovered, ?_⟩, rests.seen⟩
  intro away
  have none : e.scene.cursor.index = none := away
  simp [none]

theorem setCrosshair_none (p : PointerSurface α) (none : p.crosshair = []) :
    p.setCrosshair [] = p := by
  simp [PointerSurface.setCrosshair, none, Line.agreeAll]

theorem Stirred.clear (stirred : e.Stirred) (cursor : Cursor α) :
    ((e.setCursor cursor).setCrosshair []).Stirred := by
  obtain ⟨visible, offset, width, furnished, dark⟩ := stirred
  have pointer := setCrosshair_none e.surfaces.pointer furnished.crosshair
  refine ⟨visible, offset, width, ⟨furnished.handle, ?_, ?_, furnished.elements⟩, dark⟩
  · exact (congrArg (·.bindings) pointer).trans furnished.bindings
  · exact (congrArg (·.crosshair) pointer).trans furnished.crosshair

theorem Stirred.shift (stirred : e.Stirred) (memory : e'.memory = e.memory)
    (surfaces : e'.surfaces = e.surfaces) : e'.Stirred := by
  obtain ⟨visible, offset, width, furnished, dark⟩ := stirred
  refine ⟨visible, offset, width, ⟨?_, ?_, ?_, ?_⟩, ?_⟩
  · exact memory ▸ furnished.handle
  · exact surfaces ▸ furnished.bindings
  · exact surfaces ▸ furnished.crosshair
  · exact surfaces ▸ furnished.elements
  · exact memory ▸ dark

/-- The crosshair of the standard chart is switched off, so a turn draws none. -/
theorem stirred_turn {o : Options α} (options : e.options = BandLook.opts o) (rests : e.Rests)
    (c : Call α) : (e.turn c).Stirred := by
  cases c with
  | enter => exact (rests.hover true).stirred
  | move x y =>
      have none : ∀ scene : Scene α, scene.crosshair e.options.crosshair x y = [] := by
        intro scene
        simp [Scene.crosshair, options, BandLook.opts]
      simp only [turn, arrive]
      split
      · simp only [point, none]
        exact rests.stirred.clear _
      · have still : (e.hover true).options = e.options := rfl
        simp only [point, still, none]
        exact (rests.hover true).stirred.clear _
  | leave =>
      obtain ⟨visible, offset, width, furnished, _⟩ := rests.band
      have gone : (e.setCursor .away).Furnished visible offset width :=
        ⟨furnished.handle, furnished.bindings, furnished.crosshair, furnished.elements⟩
      have hidden : ((e.setCursor .away).hover false).Stirred :=
        ⟨false, offset, width, hover_furnished gone false, fun _ => rfl⟩
      exact hidden.clear .away
  | setData data => exact rests.stirred.shift rfl rfl
  | setWindow first last =>
      simp only [turn]
      split <;> exact rests.stirred.shift rfl rfl
  | resetWindow =>
      simp only [turn]
      split <;> exact rests.stirred.shift rfl rfl
  | render => exact rests.stirred

/-! ### Calls -/

theorem renew_rests (standard : e.Standard) (stirred : e.Stirred) : e.renew.engine.Rests := by
  rw [renew_standard standard]
  exact (rests_tell stirred).same (sketched_sameBand _)

theorem announce_rests (standard : e.Standard) (stirred : e.Stirred) :
    e.announce.engine.Rests := by
  rw [announce_standard standard]
  exact (rests_tell stirred).same (repainted_sameBand _)

theorem call_rests {o : Options α} (standard : e.Standard) (options : e.options = BandLook.opts o)
    (rests : e.Rests) (c : Call α) : (e.call c).engine.Rests := by
  rw [call_eq]
  cases refused : e.refusal c with
  | some fault => exact rests
  | none =>
      have stirred := stirred_turn options rests c
      have still : (e.turn c).Standard := (turn_setting e c).2.1.trans standard
      cases c with
      | enter => exact (rests.hover true).same (repainted_sameBand _)
      | move x y => exact announce_rests still stirred
      | leave => exact announce_rests still stirred
      | setData data => exact renew_rests still stirred
      | setWindow first last => exact renew_rests still stirred
      | resetWindow =>
          rcases reset_cases e with ⟨empty, same⟩ | ⟨filled, w, same⟩
          · rw [same, follow, if_pos empty]
            exact rests
          · rw [same] at stirred still ⊢
            rw [follow, if_neg (show (e.look w).scene.data.length ≠ 0 from filled)]
            exact renew_rests still stirred
      | render =>
          change (e.render).engine.Rests
          rw [render_standard standard]
          exact rests.same (sketched_sameBand e)

/-! ### Reachable engines -/

/-- What holds of the standard chart after every call. -/
structure Standing (o : Options α) (e : Engine Band ρ α) : Prop where
  options : e.options = BandLook.opts o
  plugins : e.Standard
  rests : e.Rests

theorem Standing.call {o : Options α} (standing : e.Standing o) (c : Call α) :
    (e.call c).engine.Standing o where
  options := (call_setting e c).1.trans standing.options
  plugins := (call_setting e c).2.trans standing.plugins
  rests := call_rests standing.plugins standing.options standing.rests c

theorem Standing.run {o : Options α} (standing : e.Standing o) (calls : List (Call α)) :
    (e.run calls).Standing o := by
  induction calls generalizing e with
  | nil => exact standing
  | cons c rest ih => exact ih (standing.call c)

variable {backend : Backend ρ α} {screen : ρ} {o : Options α} {data : Dataset α}

theorem LaidOut.standard {first : Engine Band ρ α}
    (start : LaidOut backend screen (.standard o) data first) :
    first.Standard ∧ first.options = BandLook.opts o ∧ first.memory = .fresh := by
  have opts := start.opts
  simp only [Config.standard, standardPlugins, Plugin.runOpts, BandLook.plugin,
    LadderStyle.plugin, Prod.mk.injEq, Except.ok.injEq] at opts
  exact ⟨start.plugins, opts.2.symm, opts.1.symm⟩

theorem furnish_rests {first : Engine Band ρ α}
    (start : LaidOut backend screen (.standard o) data first) :
    first.resolveScales.furnish.Rests := by
  obtain ⟨_, _, memory⟩ := start.standard
  have away : first.scene.cursor = .away := by rw [start.scene]; rfl
  have index : first.resolveScales.scene.cursor.index = none := congrArg (·.index) away
  have furnished : first.resolveScales.furnish =
      { first.resolveScales with
        memory := { Band.fresh with handle := some 0 }
        surfaces := Surfaces.blank.run [.append (BandLook.element false 0.0 0.0), .bind 0] } := by
    have same : first.resolveScales.memory = .fresh := memory
    have blank : first.resolveScales.surfaces = .blank := start.surfaces
    simp only [furnish, BandLook.init, Slot.whole, Slot.modify, same, blank]
    rfl
  rw [furnished]
  refine ⟨⟨false, 0.0, 0.0, ⟨rfl, rfl, rfl, rfl⟩, fun _ => rfl⟩, .inr ⟨rfl, index⟩⟩

theorem opened_standing {e : Engine Band ρ α}
    (opened : openWith backend screen (.standard o) data = .opened e) : e.Standing o := by
  obtain ⟨first, start, done⟩ := opened_cases opened
  obtain ⟨standard, options, _⟩ := start.standard
  rw [opening_standard standard] at done
  have same : e = first.resolveScales.furnish.sketch.paint.engine := by rw [done]
  have steady := accepted_steady first.resolveScales.furnish.sketch
    (first.backend.paint first.screen first.resolveScales.furnish.sketch.fullFrame)
  rw [same]
  exact ⟨steady.options.trans options, steady.plugins.trans standard,
    (furnish_rests start).same (sketched_sameBand _)⟩

theorem reach_standing {e : Engine Band ρ α}
    (opened : openWith backend screen (.standard o) data = .opened e) (calls : List (Call α)) :
    (e.run calls).Standing o :=
  (opened_standing opened).run calls

end Engine
end LadderChart
