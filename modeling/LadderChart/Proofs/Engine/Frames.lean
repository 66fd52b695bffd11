import LadderChart.Proofs.Engine.Setting
import LadderChart.Proofs.Engine.Watch

/-!
The frames that are handed over. A full pass hands over one frame, with the ink that its hooks left,
unless one of them failed; an update, and the opening of an engine, hand over the frame of their full
pass and no other. The other calls hand over the overlays alone, if those changed and no hook failed.
-/

namespace LadderChart.Engine
variable {σ ρ α : Type} [Scalar α]

def paintFrames (e : Engine σ ρ α) : List (Handover α) :=
  [⟨.full, e.fullFrame, (e.backend.paint e.screen e.fullFrame).2⟩]

/-- The frames of what follows a phase, if nothing failed in it. -/
def unlessStopped (o : Outcome σ ρ α) (later : Engine σ ρ α → List (Handover α)) :
    List (Handover α) :=
  match o.fault with
  | some _ => []
  | none => later o.engine

omit [Scalar α] in
theorem mem_unlessStopped {o : Outcome σ ρ α} {later : Engine σ ρ α → List (Handover α)}
    {h : Handover α} (member : h ∈ unlessStopped o later) :
    o.fault = none ∧ h ∈ later o.engine := by
  unfold unlessStopped at member
  split at member
  · cases member
  · exact ⟨‹_›, member⟩

def renderFrames (e : Engine σ ρ α) : List (Handover α) :=
  unlessStopped (runDraw e.resolveScales.drawAxes) paintFrames

def renewFrames (e : Engine σ ρ α) : List (Handover α) :=
  unlessStopped (runSetCursor e) renderFrames

def openingFrames (e : Engine σ ρ α) : List (Handover α) :=
  unlessStopped (runInit e.resolveScales) renderFrames

def repaintFrames (e : Engine σ ρ α) : List (Handover α) :=
  if e.surfaces.overlayDirty then
    [⟨.overlay, e.overlayFrame, (e.backend.repaint e.screen e.overlayFrame).2⟩]
  else []

theorem repaintFrames_overlay (e : Engine σ ρ α) (h : Handover α) (handed : h ∈ e.repaintFrames) :
    h.pass = .overlay := by
  unfold repaintFrames at handed
  split at handed
  · rw [List.mem_singleton.mp handed]
  · cases handed

def announceFrames (e : Engine σ ρ α) : List (Handover α) :=
  unlessStopped (runSetCursor e) repaintFrames

def followFrames (e : Engine σ ρ α) : Call α → List (Handover α)
  | .enter => repaintFrames e
  | .move _ _ => announceFrames e
  | .leave => announceFrames e
  | .setData _ => renewFrames e
  | .setWindow _ _ => renewFrames e
  | .resetWindow => if e.scene.data.length = 0 then [] else renewFrames e
  | .render => renderFrames e

/-- Watched or not, a phase ends alike, and these are the frames that it hands over. -/
def Hands (watched : WatchedEngine σ ρ α → WatchedOutcome σ ρ α) (handed : List (Handover α))
    (e : Engine σ ρ α) : Prop :=
  ∀ visits frames, (watched (e.watched visits frames)).engine.screen.2 = frames ++ handed

theorem paint_hands (e : Engine σ ρ α) : Hands paint e.paintFrames e := by
  intro visits frames
  have same := accepted_watched e visits
    (frames ++ [⟨.full, e.fullFrame, (e.backend.paint e.screen e.fullFrame).2⟩])
    (e.backend.paint e.screen e.fullFrame)
  exact congrArg (fun o => o.engine.screen.2) same

/-- Hooks hand nothing over, so the frames of a phase are those of what follows it. -/
theorem hands_after (hook : Hook) (body : Plugin σ α → HookBody σ α)
    {body' : Plugin (σ × List (Visit α)) α → HookBody (σ × List (Visit α)) α}
    (noted : ∀ p, body' p.watched = (body p).watched p.id hook) (settle : Surfaces α → Surfaces α)
    (e : Engine σ ρ α) {next : WatchedEngine σ ρ α → WatchedOutcome σ ρ α}
    {later : Engine σ ρ α → List (Handover α)} (rest : ∀ e, Hands next (later e) e) :
    Hands (fun w => (runHooks hook body' settle w.plugins w).andThen next)
      (unlessStopped (runHooks hook body settle e.plugins e) later) e := by
  intro visits frames
  have same := runHooks_watched hook body body' noted settle e.plugins e visits frames
  simp only [unlessStopped]
  change (Outcome.andThen (runHooks hook body' settle (e.plugins.map Plugin.watched)
    (e.watched visits frames)) next).engine.screen.2 = _
  rw [same]
  cases failed : (runHooks hook body settle e.plugins e).fault with
  | some fault => simp [Outcome.andThen, Outcome.watched, failed, watched]
  | none =>
      simp only [Outcome.andThen, Outcome.watched, failed]
      exact rest _ _ frames

theorem render_hands (e : Engine σ ρ α) : Hands render e.renderFrames e := by
  intro visits frames
  exact hands_after .draw Plugin.draw (fun _ => rfl) settleCanvas e.resolveScales.drawAxes
    paint_hands visits frames

theorem renew_hands (e : Engine σ ρ α) : Hands renew e.renewFrames e :=
  hands_after .setCursor Plugin.setCursor (fun _ => rfl) id e render_hands

theorem opening_hands (e : Engine σ ρ α) : Hands opening e.openingFrames e := by
  intro visits frames
  exact hands_after .init Plugin.init (fun _ => rfl) id e.resolveScales render_hands visits frames

theorem repaintIfDirty_hands (e : Engine σ ρ α) : Hands repaintIfDirty e.repaintFrames e := by
  intro visits frames
  have flag : (e.watched visits frames).surfaces.overlayDirty = e.surfaces.overlayDirty := rfl
  cases dirty : e.surfaces.overlayDirty with
  | false => simp [repaintIfDirty, repaintFrames, dirty, Outcome.done, watched]
  | true =>
      simp only [repaintIfDirty, repaintFrames, flag, dirty, if_true]
      exact congrArg (fun o => o.engine.screen.2) (accepted_watched e visits
        (frames ++ [⟨.overlay, e.overlayFrame, (e.backend.repaint e.screen e.overlayFrame).2⟩])
        (e.backend.repaint e.screen e.overlayFrame))

theorem announce_hands (e : Engine σ ρ α) : Hands announce e.announceFrames e :=
  hands_after .setCursor Plugin.setCursor (fun _ => rfl) id e repaintIfDirty_hands

theorem follow_hands (e : Engine σ ρ α) (c : Call α) : Hands (follow · c) (e.followFrames c) e := by
  cases c with
  | enter => exact repaintIfDirty_hands e
  | move x y => exact announce_hands e
  | leave => exact announce_hands e
  | setData data => exact renew_hands e
  | setWindow first last => exact renew_hands e
  | resetWindow =>
      intro visits frames
      have length : (e.watched visits frames).scene.data.length = e.scene.data.length := rfl
      by_cases empty : e.scene.data.length = 0
      · simp [follow, followFrames, empty, Outcome.done, watched]
      · simp only [follow, followFrames, length, if_neg empty]
        exact renew_hands e visits frames
  | render => exact render_hands e

/-- The frames of an accepted call are those of the work after its turn; a refused call has none. -/
theorem frames_eq (e : Engine σ ρ α) (c : Call α) : e.frames c = match e.refusal c with
    | some _ => []
    | none => (e.turn c).followFrames c := by
  unfold frames
  rw [call_eq, watched_refusal, watched_turn]
  cases e.refusal c with
  | some fault => rfl
  | none => exact follow_hands (e.turn c) c [] []

/-- Other data or another window: what an accepted update hands over. -/
theorem frames_update (e : Engine σ ρ α) (c : Call α) (accepted : e.refusal c = none)
    (update : ∀ e : Engine σ ρ α, e.followFrames c = e.renewFrames) :
    e.frames c = (e.turn c).renewFrames := by
  rw [frames_eq, accepted]
  exact update (e.turn c)

theorem frames_refused (e : Engine σ ρ α) (c : Call α) (fault : Fault)
    (refused : e.refusal c = some fault) : e.frames c = [] := by
  rw [frames_eq, refused]

section Opening
variable {backend : Backend ρ α} {screen : ρ} {config : Config σ α} {data : Dataset α}
  {first : Engine σ ρ α}

theorem watchedStart (start : LaidOut backend screen config data first) :
    LaidOut backend.watched (screen, []) config.watched data
      (first.watched (optsVisits config.memory config.options config.plugins) []) := by
  constructor
  · exact (checkIds_watched [] config.plugins).trans start.ids
  · have watched := runOpts_watched config.memory config.options config.plugins []
    rw [start.opts, List.nil_append] at watched
    exact watched
  · exact start.options
  · exact start.valid
  · exact start.box
  · exact start.scene
  · exact start.surfaces
  · exact congrArg (List.map Plugin.watched) start.plugins
  · exact congrArg Backend.watched start.backend
  · exact congrArg (fun screen => (screen, [])) start.screen

theorem openFrames_laid (start : LaidOut backend screen config data first) :
    openFrames backend screen config data = first.openingFrames := by
  have handed := opening_hands first (optsVisits config.memory config.options config.plugins) []
  rw [List.nil_append] at handed
  unfold openFrames
  rw [openWith_laid (watchedStart start), ← handed, start_eq]
  split <;> rename_i same <;> split at same <;> cases same <;> rfl

/-- Nothing is handed over for data that are refused. -/
theorem openFrames_refused (start : LaidOut backend screen config data first) (screen' : ρ)
    (other : Dataset α) (fault : Fault) (invalid : other.check = .error fault) :
    openFrames backend screen' config other = [] := by
  unfold openFrames
  rw [(watchedStart start).refused (screen', []) other fault invalid]

end Opening

end LadderChart.Engine
