import LadderChart.Proofs.Engine.Watch
import LadderChart.Proofs.Overlay.Elements

/-!
What the screen shows of the overlays. The display is made of the accepted frames alone. While no
overlay is dirty it shows both of them as they are, whatever failed before; and every call that does
not fail leaves them clean.
-/

namespace LadderChart

/-- What a backend shows, layer by layer. -/
structure Display (α : Type) where
  under : Layer α
  main : Layer α
  upper : Layer α

namespace Display
variable {α : Type}

def blank : Display α := ⟨.blank .under, .blank .main, .blank .over⟩

def inkOf (f : Frame α) (kind : LayerKind) : Layer α := (f.layer? kind).getD (.blank kind)

/-- A full frame replaces every layer, an overlay frame the outer two; a frame that was not accepted
replaces nothing. -/
def take (d : Display α) (h : Handover α) : Display α :=
  match h.fault, h.pass with
  | some _, _ => d
  | none, .full => ⟨inkOf h.frame .under, inkOf h.frame .main, inkOf h.frame .over⟩
  | none, .overlay => { d with under := inkOf h.frame .under, upper := inkOf h.frame .over }

def after (d : Display α) (handed : List (Handover α)) : Display α := handed.foldl take d

theorem after_snoc (d : Display α) (handed : List (Handover α)) (h : Handover α) :
    d.after (handed ++ [h]) = (d.after handed).take h := by
  simp [after]

end Display

/-! ### Changes of the overlays -/

section Changes
variable {α : Type}

/-- If no overlay is dirty at the end, none was before, and both show what they showed. -/
def Surfaces.Tracks (s s' : Surfaces α) : Prop :=
  s'.overlayDirty = false → s.overlayDirty = false ∧ s'.under.elements = s.under.elements ∧
    s'.pointer.crosshair = s.pointer.crosshair

namespace Surfaces

theorem Tracks.trans {s₁ s₂ s₃ : Surfaces α} (a : Tracks s₁ s₂) (b : Tracks s₂ s₃) :
    Tracks s₁ s₃ := by
  intro clean
  obtain ⟨cleanBefore, elements, crosshair⟩ := b clean
  obtain ⟨cleanFirst, same, alike⟩ := a cleanBefore
  exact ⟨cleanFirst, elements.trans same, crosshair.trans alike⟩

theorem clean_iff (s : Surfaces α) :
    s.overlayDirty = false ↔ s.under.dirty = false ∧ s.pointer.dirty = false := by
  simp [overlayDirty]

theorem tracks_same {s s' : Surfaces α} (under : s'.under = s.under)
    (dirty : s'.pointer.dirty = s.pointer.dirty)
    (crosshair : s'.pointer.crosshair = s.pointer.crosshair) : Tracks s s' := by
  intro clean
  refine ⟨?_, by rw [under], crosshair⟩
  rwa [clean_iff, under, dirty, ← clean_iff] at clean

theorem tracks_under {s s' : Surfaces α} (under : s.under.Tracks s'.under)
    (dirty : s'.pointer.dirty = s.pointer.dirty)
    (crosshair : s'.pointer.crosshair = s.pointer.crosshair) : Tracks s s' := by
  intro clean
  have parts := (clean_iff s').mp clean
  have same := under parts.1
  refine ⟨(clean_iff s).mpr ⟨?_, dirty ▸ parts.2⟩, by rw [same], crosshair⟩
  rw [← same]
  exact parts.1

theorem setHovered_tracks (s : Surfaces α) (hovered overColumn : Bool) :
    Tracks s (s.setHovered hovered overColumn) :=
  tracks_under (UnderLayer.showAll_tracks _ _ _) rfl rfl

variable [Scalar α]

theorem setCrosshair_tracks (s : Surfaces α) (lines : List (Line α)) :
    Tracks s { s with pointer := s.pointer.setCrosshair lines } := by
  unfold PointerSurface.setCrosshair
  split
  · exact tracks_same rfl rfl rfl
  · intro clean
    simp [overlayDirty] at clean

theorem apply_tracks (s : Surfaces α) (a : Action α) : Tracks s (s.apply a) := by
  cases a with
  | draw stroke => exact tracks_same rfl rfl rfl
  | append e => exact tracks_under (UnderLayer.append_tracks _ e) rfl rfl
  | reveal h visible => exact tracks_under (UnderLayer.update_tracks _ h _ _) rfl rfl
  | place h offset width => exact tracks_under (UnderLayer.update_tracks _ h _ _) rfl rfl
  | bind h =>
      simp only [apply, PointerSurface.bind]
      split <;> exact tracks_same rfl rfl rfl

end Surfaces
end Changes

/-! ### The main layer keeps its kind -/

namespace Canvas
variable {α : Type}

mutual

theorem apply_kind (c : Canvas α) (stroke : Stroke α) : (apply c stroke).ink.kind = c.ink.kind := by
  cases stroke with
  | restore => simp only [apply, restore_ink]
  | scope body =>
      simp only [apply, restore_ink]
      exact run_kind c.save body
  | _ => rfl

theorem run_kind (c : Canvas α) (strokes : List (Stroke α)) :
    (run c strokes).ink.kind = c.ink.kind := by
  cases strokes with
  | nil => rfl
  | cons stroke rest =>
      simp only [run]
      exact (run_kind _ rest).trans (apply_kind c stroke)

end

end Canvas

theorem Surfaces.apply_kind {α : Type} [Scalar α] (s : Surfaces α) (a : Action α) :
    (s.apply a).canvas.ink.kind = s.canvas.ink.kind := by
  cases a with
  | draw stroke => exact Canvas.apply_kind s.canvas stroke
  | _ => rfl

namespace Engine
variable {σ ρ α : Type} [Scalar α]

theorem overlayFrame_ink (e : Engine σ ρ α) :
    Display.inkOf e.overlayFrame .under = underInk e.options e.scene e.surfaces.under ∧
      Display.inkOf e.overlayFrame .over = overInk e.surfaces.pointer := by
  constructor <;> rfl

theorem fullFrame_ink (e : Engine σ ρ α) (main : e.surfaces.canvas.ink.kind = .main) :
    Display.inkOf e.fullFrame .under = underInk e.options e.scene e.surfaces.under ∧
      Display.inkOf e.fullFrame .main = e.surfaces.canvas.ink ∧
      Display.inkOf e.fullFrame .over = overInk e.surfaces.pointer := by
  simp [Display.inkOf, fullFrame, Frame.full, Frame.setLayer, Frame.replace, Frame.layer?, underInk,
    overInk, Layer.blank, main]

/-- The display shows the overlays of the engine as they are. -/
structure ShownOn (d : Display α) (e : Engine σ ρ α) : Prop where
  under : d.under = underInk e.options e.scene e.surfaces.under
  upper : d.upper = overInk e.surfaces.pointer

/-- What holds all the time: the frames so far show the overlays, unless one of them is dirty. -/
structure Tracked (backend : Backend ρ α) (w : WatchedEngine σ ρ α) : Prop where
  backend : w.backend = backend.watched
  main : w.surfaces.canvas.ink.kind = .main
  shown : w.surfaces.overlayDirty = false → w.ShownOn (Display.blank.after w.screen.2)

/-- What the frames so far and the ink of the overlays depend on, besides the surfaces. -/
structure SameLook (w w' : Engine σ ρ α) : Prop where
  backend : w'.backend = w.backend
  screen : w'.screen = w.screen
  options : w'.options = w.options
  ratio : w'.scene.pixelRatio = w.scene.pixelRatio
  box : w'.scene.box = w.scene.box

theorem underInk_same {e e' : Engine σ ρ α} (look : SameLook e e')
    (elements : e'.surfaces.under.elements = e.surfaces.under.elements) :
    underInk e'.options e'.scene e'.surfaces.under =
      underInk e.options e.scene e.surfaces.under := by
  have bands : bandRect e'.options e'.scene = bandRect e.options e.scene := by
    funext element
    simp only [bandRect, look.options, look.ratio, look.box]
  simp only [underInk, bands, elements]

theorem Tracked.carry {backend : Backend ρ α} {w w' : WatchedEngine σ ρ α}
    (tracked : Tracked backend w) (look : SameLook w w')
    (kind : w'.surfaces.canvas.ink.kind = .main) (tracks : w.surfaces.Tracks w'.surfaces) :
    Tracked backend w' := by
  constructor
  · exact look.backend.trans tracked.backend
  · exact kind
  · intro clean
    obtain ⟨cleanBefore, elements, crosshair⟩ := tracks clean
    have before := tracked.shown cleanBefore
    rw [look.screen]
    constructor
    · rw [underInk_same look elements]
      exact before.under
    · simp only [overInk, crosshair]
      exact before.upper

/-- A frame of the overlays as they are was handed over. If it was refused, the display and the
overlays are as they were; if it was accepted, the display shows them. -/
theorem Tracked.hand {backend : Backend ρ α} {w : WatchedEngine σ ρ α} (tracked : Tracked backend w)
    (h : Handover α) (screen : ρ)
    (under : Display.inkOf h.frame .under = underInk w.options w.scene w.surfaces.under)
    (upper : Display.inkOf h.frame .over = overInk w.surfaces.pointer) :
    Tracked backend (w.accepted ((screen, w.screen.2 ++ [h]), h.fault)).engine := by
  rcases accepted_cases w ((screen, w.screen.2 ++ [h]), h.fault) with
    ⟨_, accepted, same⟩ | ⟨_, refused, same⟩
  · -- accepted: either pass replaces both outer layers, so what was shown before does not matter
    have taken : ((Display.blank.after w.screen.2).take h).under = Display.inkOf h.frame .under ∧
        ((Display.blank.after w.screen.2).take h).upper = Display.inkOf h.frame .over := by
      have none : h.fault = none := accepted
      simp only [Display.take, none]
      cases h.pass <;> exact ⟨rfl, rfl⟩
    rw [same]
    refine ⟨tracked.backend, tracked.main, fun _ => ⟨?_, ?_⟩⟩
    · rw [Display.after_snoc, taken.1, under]
      rfl
    · rw [Display.after_snoc, taken.2, upper]
      rfl
  · -- refused: nothing is replaced, and a dirty overlay stays dirty
    have kept : (Display.blank.after w.screen.2).take h = Display.blank.after w.screen.2 := by
      obtain ⟨fault, failed⟩ := Option.ne_none_iff_exists'.mp refused
      have some : h.fault = some fault := failed
      simp only [Display.take, some]
    rw [same]
    refine ⟨tracked.backend, tracked.main, ?_⟩
    intro clean
    have before := tracked.shown clean
    rw [Display.after_snoc, kept]
    exact ⟨before.under, before.upper⟩

theorem tracked_work {may : Action α → Prop} {backend : Backend ρ α} {w w' : WatchedEngine σ ρ α}
    (step : Work may w w') (tracked : Tracked backend w) : Tracked backend w' := by
  cases step with
  | remember memory =>
      exact tracked.carry ⟨rfl, rfl, rfl, rfl, rfl⟩ tracked.main (Surfaces.tracks_same rfl rfl rfl)
  | act a allowed =>
      exact tracked.carry ⟨rfl, rfl, rfl, rfl, rfl⟩
        ((w.surfaces.apply_kind a).trans tracked.main) (Surfaces.apply_tracks _ a)
  | settle =>
      exact tracked.carry ⟨rfl, rfl, rfl, rfl, rfl⟩ tracked.main (Surfaces.tracks_same rfl rfl rfl)
  | resolve =>
      exact tracked.carry ⟨rfl, rfl, rfl, rfl, rfl⟩ tracked.main (Surfaces.tracks_same rfl rfl rfl)
  | axes =>
      exact tracked.carry ⟨rfl, rfl, rfl, rfl, rfl⟩ (Canvas.run_kind _ _)
        (Surfaces.tracks_same rfl rfl rfl)
  | paint =>
      have ink := fullFrame_ink w tracked.main
      have done := tracked.hand ⟨.full, w.fullFrame, (backend.paint w.screen.1 w.fullFrame).2⟩
        (backend.paint w.screen.1 w.fullFrame).1 ink.1 ink.2.2
      rwa [paint, tracked.backend]
  | repaint =>
      have ink := overlayFrame_ink w
      have done := tracked.hand ⟨.overlay, w.overlayFrame,
        (backend.repaint w.screen.1 w.overlayFrame).2⟩
        (backend.repaint w.screen.1 w.overlayFrame).1 ink.1 ink.2
      rwa [repaint, tracked.backend]

/-- A turn may change what the overlays show, but then it makes them dirty. -/
theorem turn_tracks (e : Engine σ ρ α) (c : Call α) :
    SameLook e (e.turn c) ∧ (e.turn c).surfaces.canvas = e.surfaces.canvas ∧
      e.surfaces.Tracks (e.turn c).surfaces := by
  cases c with
  | enter => exact ⟨⟨rfl, rfl, rfl, rfl, rfl⟩, rfl, Surfaces.setHovered_tracks _ _ _⟩
  | move x y =>
      have pointed : ∀ e' : Engine σ ρ α, e'.surfaces.Tracks (e'.point x y).surfaces :=
        fun e' => Surfaces.setCrosshair_tracks e'.surfaces _
      simp only [turn, arrive]
      split
      · exact ⟨⟨rfl, rfl, rfl, rfl, rfl⟩, rfl, pointed e⟩
      · exact ⟨⟨rfl, rfl, rfl, rfl, rfl⟩, rfl,
          (Surfaces.setHovered_tracks e.surfaces true _).trans (pointed (e.hover true))⟩
  | leave =>
      exact ⟨⟨rfl, rfl, rfl, rfl, rfl⟩, rfl,
        (Surfaces.setHovered_tracks e.surfaces false _).trans (Surfaces.setCrosshair_tracks _ [])⟩
  | setData data => exact ⟨⟨rfl, rfl, rfl, rfl, rfl⟩, rfl, Surfaces.tracks_same rfl rfl rfl⟩
  | setWindow first last =>
      simp only [turn]
      split <;> exact ⟨⟨rfl, rfl, rfl, rfl, rfl⟩, rfl, Surfaces.tracks_same rfl rfl rfl⟩
  | resetWindow =>
      simp only [turn]
      split <;> exact ⟨⟨rfl, rfl, rfl, rfl, rfl⟩, rfl, Surfaces.tracks_same rfl rfl rfl⟩
  | render => exact ⟨⟨rfl, rfl, rfl, rfl, rfl⟩, rfl, Surfaces.tracks_same rfl rfl rfl⟩

theorem tracked_turn {backend : Backend ρ α} {w : WatchedEngine σ ρ α} (tracked : Tracked backend w)
    (c : Call α) : Tracked backend (w.turn c) := by
  obtain ⟨look, canvas, tracks⟩ := turn_tracks w c
  exact tracked.carry look (canvas ▸ tracked.main) tracks

/-! ### Calls that do not fail leave the overlays clean -/

omit [Scalar α] in
theorem accepted_clean (e : Engine σ ρ α) (answer : ρ × Option Fault)
    (ok : (e.accepted answer).fault = none) :
    (e.accepted answer).engine.surfaces.overlayDirty = false := by
  rcases accepted_cases e answer with ⟨_, _, same⟩ | ⟨failed, _, _⟩
  · rw [same]
    rfl
  · exact absurd ok failed

omit [Scalar α] in
theorem andThen_clean {o : Outcome σ ρ α} {next : Engine σ ρ α → Outcome σ ρ α}
    (clean : ∀ e, (next e).fault = none → (next e).engine.surfaces.overlayDirty = false)
    (ok : (o.andThen next).fault = none) :
    (o.andThen next).engine.surfaces.overlayDirty = false := by
  unfold Outcome.andThen at ok ⊢
  cases failed : o.fault with
  | some fault => simp [failed] at ok
  | none =>
      simp only [failed] at ok ⊢
      exact clean o.engine ok

theorem repaintIfDirty_clean (e : Engine σ ρ α) (ok : e.repaintIfDirty.fault = none) :
    e.repaintIfDirty.engine.surfaces.overlayDirty = false := by
  unfold repaintIfDirty at ok ⊢
  cases dirty : e.surfaces.overlayDirty with
  | false => simp [dirty, Outcome.done]
  | true =>
      simp only [dirty, if_true] at ok ⊢
      exact accepted_clean e _ ok

theorem render_clean (e : Engine σ ρ α) (ok : e.render.fault = none) :
    e.render.engine.surfaces.overlayDirty = false :=
  andThen_clean (fun e' => accepted_clean e' _) ok

theorem renew_clean (e : Engine σ ρ α) (ok : e.renew.fault = none) :
    e.renew.engine.surfaces.overlayDirty = false :=
  andThen_clean render_clean ok

/-- A call that answers without a fault leaves the overlays clean; only a reset of a window that
cannot be there does nothing at all. -/
theorem call_clean (e : Engine σ ρ α) (c : Call α)
    (active : c = .resetWindow → e.scene.data.length ≠ 0) (ok : (e.call c).fault = none) :
    (e.call c).engine.surfaces.overlayDirty = false := by
  rw [call_eq] at ok ⊢
  cases refused : e.refusal c with
  | some fault => simp [refused] at ok
  | none =>
      simp only [refused] at ok ⊢
      cases c with
      | enter => exact repaintIfDirty_clean _ ok
      | move x y => exact andThen_clean repaintIfDirty_clean ok
      | leave => exact andThen_clean repaintIfDirty_clean ok
      | setData data => exact renew_clean _ ok
      | setWindow first last => exact renew_clean _ ok
      | resetWindow =>
          have filled : (e.turn .resetWindow).scene.data.length ≠ 0 := by
            simp only [turn]
            split <;> exact active rfl
          simp only [follow, if_neg filled] at ok ⊢
          exact renew_clean _ ok
      | render => exact render_clean _ ok

theorem opening_clean (e : Engine σ ρ α) (ok : e.opening.fault = none) :
    e.opening.engine.surfaces.overlayDirty = false :=
  andThen_clean render_clean ok

/-! ### Reachable engines -/

theorem reach_tracked {backend : Backend ρ α} {screen : ρ} {config : Config σ α}
    {data : Dataset α} {e : Engine σ ρ α}
    (opened : openWith backend screen config data = .opened e) (calls : List (Call α)) :
    ∃ visits, Tracked backend ((e.run calls).watched visits
      (openFrames backend screen config data ++ e.runFrames calls)) := by
  -- the invariant is about the watched engine, whose screen holds the frames
  have watchedOpen := (openWith_watched opened).1
  obtain ⟨visits, same⟩ := watched_run e calls (openVisits backend screen config data)
    (openFrames backend screen config data)
  have reached : Tracked backend ((e.watched (openVisits backend screen config data)
      (openFrames backend screen config data)).run calls) := by
    refine reach_keeps watchedOpen (fun p _ => p.keeps_any) ?_
      (fun _ _ step tracked => tracked_work step tracked) calls
      (fun c _ _ _ tracked => tracked_turn tracked c)
    intro first start
    refine ⟨start.backend, by rw [start.surfaces]; rfl, fun _ => ⟨?_, ?_⟩⟩
    · simp [start.screen, start.surfaces, Display.after, Display.blank, Surfaces.blank, underInk,
        UnderLayer.blank, Layer.blank]
    · simp [start.screen, start.surfaces, Display.after, Display.blank, Surfaces.blank, overInk,
        PointerSurface.blank, Layer.blank]
  rw [same] at reached
  exact ⟨visits, reached⟩

/-- No change of the overlays is lost. Over any backend, with any plugins and after any calls,
failed or not: while neither overlay is dirty, the accepted frames show both as they are; and an
engine that opens, or a call that answers without a fault, leaves both clean, unless the call resets
the window of an empty series. -/
theorem clean_overlays_shown {backend : Backend ρ α} {screen : ρ} {config : Config σ α}
    {data : Dataset α} {e : Engine σ ρ α}
    (opened : openWith backend screen config data = .opened e) (calls : List (Call α)) :
    e.surfaces.overlayDirty = false ∧
      ((e.run calls).surfaces.overlayDirty = false → (e.run calls).ShownOn
        (Display.blank.after (openFrames backend screen config data ++ e.runFrames calls))) ∧
      ∀ c, (c = .resetWindow → (e.run calls).scene.data.length ≠ 0) →
        ((e.run calls).call c).fault = none →
        ((e.run calls).call c).engine.surfaces.overlayDirty = false := by
  obtain ⟨visits, tracked⟩ := reach_tracked opened calls
  obtain ⟨first, _, done⟩ := opened_cases opened
  have cleanFirst : first.opening.engine.surfaces.overlayDirty = false :=
    opening_clean first (by rw [done])
  rw [done] at cleanFirst
  refine ⟨cleanFirst, ?_, ?_⟩
  · intro clean
    have shown := tracked.shown clean
    exact ⟨shown.under, shown.upper⟩
  · intro c active ok
    exact call_clean _ c active ok

/-- The pointer moves over the second column, then a window is asked for that cannot be. -/
theorem band_shown : ∃ e, twoColumnChart = .opened e ∧
    (e.run [.move 1300.0 100.0, .setWindow 1 2]).surfaces.under.elements.any (·.visible) = true ∧
    (e.run [.move 1300.0 100.0, .setWindow 1 2]).ShownOn
      (Display.blank.after (openFrames Recorder.backend .fresh (.standard .standard) twoColumns ++
        e.runFrames [.move 1300.0 100.0, .setWindow 1 2])) := by
  have evaluated : twoColumnChart.passes (fun e =>
      let reached := e.run [.move 1300.0 100.0, .setWindow 1 2]
      reached.surfaces.under.elements.any (·.visible) &&
        !reached.surfaces.overlayDirty) = true := by
    decide +kernel
  obtain ⟨e, opened, test⟩ := (Opening.passes_iff _ _).mp evaluated
  rw [Bool.and_eq_true, Bool.not_eq_true'] at test
  exact ⟨e, opened, test.1, (clean_overlays_shown opened _).2.1 test.2⟩

end Engine
end LadderChart
