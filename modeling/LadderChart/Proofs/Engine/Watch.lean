import LadderChart.Proofs.Engine.Reach

/-!
Watched engines. Their plugins note every hook that is entered, with all that it is given, and their
backend notes every frame that is handed over, with its answer. Watching changes nothing else: a
watched engine takes every step of the plain one, and its notes only grow. What a call lets plugins
and backend see is read off the notes of a watched engine.
-/

namespace LadderChart

/-- A hook as it is entered, with what it is given. -/
inductive Visit (α : Type) where
  | opts (id : String) (o : Options α)
  | hook (id : String) (hook : Hook) (scene : Scene α) (surfaces : Surfaces α)

inductive Pass where
  | full | overlay
  deriving DecidableEq

/-- A frame that was handed over, and what the backend answered. -/
structure Handover (α : Type) where
  pass : Pass
  frame : Frame α
  fault : Option Fault

section Watching
variable {σ ρ α : Type}

def HookBody.watched (body : HookBody σ α) (id : String) (hook : Hook) :
    HookBody (σ × List (Visit α)) α := fun memory scene surfaces =>
  let run := body memory.1 scene surfaces
  ⟨(run.memory, memory.2 ++ [.hook id hook scene surfaces]), run.actions, run.fault⟩

def Plugin.watched (p : Plugin σ α) : Plugin (σ × List (Visit α)) α where
  id := p.id
  opts memory o :=
    let answer := p.opts memory.1 o
    ((answer.1, memory.2 ++ [.opts p.id o]), answer.2)
  init := p.init.watched p.id .init
  setCursor := p.setCursor.watched p.id .setCursor
  draw := p.draw.watched p.id .draw

def Backend.watched (b : Backend ρ α) : Backend (ρ × List (Handover α)) α where
  paint screen frame :=
    let answer := b.paint screen.1 frame
    ((answer.1, screen.2 ++ [⟨.full, frame, answer.2⟩]), answer.2)
  repaint screen frame :=
    let answer := b.repaint screen.1 frame
    ((answer.1, screen.2 ++ [⟨.overlay, frame, answer.2⟩]), answer.2)

def Config.watched (c : Config σ α) : Config (σ × List (Visit α)) α :=
  ⟨c.options, c.plugins.map Plugin.watched, (c.memory, [])⟩

abbrev WatchedEngine (σ ρ α : Type) : Type := Engine (σ × List (Visit α)) (ρ × List (Handover α)) α

abbrev WatchedOutcome (σ ρ α : Type) : Type :=
  Outcome (σ × List (Visit α)) (ρ × List (Handover α)) α

def Engine.watched (e : Engine σ ρ α) (visits : List (Visit α)) (frames : List (Handover α)) :
    WatchedEngine σ ρ α where
  options := e.options
  plugins := e.plugins.map Plugin.watched
  memory := (e.memory, visits)
  backend := e.backend.watched
  screen := (e.screen, frames)
  scene := e.scene
  surfaces := e.surfaces

def Outcome.watched (o : Outcome σ ρ α) (visits : List (Visit α)) (frames : List (Handover α)) :
    WatchedOutcome σ ρ α := ⟨o.engine.watched visits frames, o.fault⟩

end Watching

namespace Engine
variable {σ ρ α : Type}

/-- What is entered after a phase, if nothing failed in it. -/
def unlessFailed (o : Outcome σ ρ α) (later : Engine σ ρ α → List (Visit α)) : List (Visit α) :=
  match o.fault with
  | some _ => []
  | none => later o.engine

theorem unlessFailed_silent (o : Outcome σ ρ α) : unlessFailed o (fun _ => []) = [] := by
  unfold unlessFailed
  split <;> rfl

/-- Watched or not, a phase ends alike; the notes grow by the given visits and by some frames. -/
def Mirrors (watched : WatchedEngine σ ρ α → WatchedOutcome σ ρ α)
    (plain : Engine σ ρ α → Outcome σ ρ α) (entered : List (Visit α)) (e : Engine σ ρ α) : Prop :=
  ∃ handed, ∀ visits frames, watched (e.watched visits frames) =
    (plain e).watched (visits ++ entered) (frames ++ handed)

theorem Mirrors.andThen {f' : WatchedEngine σ ρ α → WatchedOutcome σ ρ α}
    {f : Engine σ ρ α → Outcome σ ρ α} {g' : WatchedEngine σ ρ α → WatchedOutcome σ ρ α}
    {g : Engine σ ρ α → Outcome σ ρ α} {first : List (Visit α)}
    {later : Engine σ ρ α → List (Visit α)} {e : Engine σ ρ α} (one : Mirrors f' f first e)
    (two : Mirrors g' g (later (f e).engine) (f e).engine) :
    Mirrors (fun e => (f' e).andThen g') (fun e => (f e).andThen g)
      (first ++ unlessFailed (f e) later) e := by
  obtain ⟨handed, same⟩ := one
  obtain ⟨more, alike⟩ := two
  cases failed : (f e).fault with
  | some fault =>
      refine ⟨handed, ?_⟩
      intro visits frames
      simp [same, Outcome.andThen, Outcome.watched, unlessFailed, failed]
  | none =>
      refine ⟨handed ++ more, ?_⟩
      intro visits frames
      have rest := alike (visits ++ first) (frames ++ handed)
      rw [List.append_assoc, List.append_assoc] at rest
      simp only [same, Outcome.andThen, Outcome.watched, unlessFailed, failed]
      exact rest

theorem Mirrors.andThen_silent {f' : WatchedEngine σ ρ α → WatchedOutcome σ ρ α}
    {f : Engine σ ρ α → Outcome σ ρ α} {g' : WatchedEngine σ ρ α → WatchedOutcome σ ρ α}
    {g : Engine σ ρ α → Outcome σ ρ α} {first : List (Visit α)} {e : Engine σ ρ α}
    (one : Mirrors f' f first e) (two : Mirrors g' g [] (f e).engine) :
    Mirrors (fun e => (f' e).andThen g') (fun e => (f e).andThen g) first e := by
  have both := @Mirrors.andThen _ _ _ f' f g' g first (fun _ => []) e one two
  rwa [unlessFailed_silent, List.append_nil] at both

theorem accepted_watched (e : Engine σ ρ α) (visits : List (Visit α)) (frames : List (Handover α))
    (answer : ρ × Option Fault) :
    (e.watched visits []).accepted ((answer.1, frames), answer.2) =
      (e.accepted answer).watched visits frames := by
  obtain ⟨screen, fault⟩ := answer
  cases fault <;> rfl

theorem checkIds_watched (seen : List String) (plugins : List (Plugin σ α)) :
    Plugin.checkIds seen (plugins.map Plugin.watched) = Plugin.checkIds seen plugins := by
  induction plugins generalizing seen with
  | nil => rfl
  | cons p rest ih =>
      simp only [List.map_cons, Plugin.checkIds, ih]
      rfl

/-- The options hooks that are entered, up to the first that fails. -/
def optsVisits (memory : σ) (o : Options α) : List (Plugin σ α) → List (Visit α)
  | [] => []
  | p :: rest =>
      .opts p.id o :: match p.opts memory o with
        | (_, .error _) => []
        | (memory, .ok o) => optsVisits memory o rest

theorem runOpts_watched (memory : σ) (o : Options α) (plugins : List (Plugin σ α))
    (visits : List (Visit α)) :
    Plugin.runOpts (memory, visits) o (plugins.map Plugin.watched) =
      (((Plugin.runOpts memory o plugins).1, visits ++ optsVisits memory o plugins),
        (Plugin.runOpts memory o plugins).2) := by
  induction plugins generalizing memory o visits with
  | nil => simp [Plugin.runOpts, optsVisits]
  | cons p rest ih =>
      simp only [List.map_cons, Plugin.runOpts, optsVisits]
      simp only [Plugin.watched]
      obtain ⟨next, answer⟩ := p.opts memory o
      cases answer with
      | error fault => rfl
      | ok o =>
          simp only []
          rw [ih, List.append_assoc]
          rfl

variable [Scalar α]

/-- The hooks that a call enters, in order. -/
def visits (e : Engine σ ρ α) (c : Call α) : List (Visit α) :=
  ((e.watched [] []).call c).engine.memory.2

/-- The frames that a call hands over, in order. -/
def frames (e : Engine σ ρ α) (c : Call α) : List (Handover α) :=
  ((e.watched [] []).call c).engine.screen.2

def runFrames (e : Engine σ ρ α) : List (Call α) → List (Handover α)
  | [] => []
  | c :: rest => e.frames c ++ runFrames (e.call c).engine rest

/-- The hooks entered while an engine is opened. -/
def openVisits (backend : Backend ρ α) (screen : ρ) (config : Config σ α) (data : Dataset α) :
    List (Visit α) :=
  match openWith backend.watched (screen, []) config.watched data with
  | .refused memory _ _ => memory.2
  | .opened e => e.memory.2

/-- The frames handed over while an engine is opened. -/
def openFrames (backend : Backend ρ α) (screen : ρ) (config : Config σ α) (data : Dataset α) :
    List (Handover α) :=
  match openWith backend.watched (screen, []) config.watched data with
  | .refused _ screen _ => screen.2
  | .opened e => e.screen.2

/-! ### Phases

The hooks of one phase are entered up to the first that fails, each on what those before it left. -/

def phaseVisits (hook : Hook) (body : Plugin σ α → HookBody σ α)
    (settle : Surfaces α → Surfaces α) : List (Plugin σ α) → Engine σ ρ α → List (Visit α)
  | [], _ => []
  | p :: rest, e =>
      let run := body p e.memory e.scene e.surfaces
      .hook p.id hook e.scene e.surfaces :: match run.fault with
        | some _ => []
        | none => phaseVisits hook body settle rest { e with
            memory := run.memory, surfaces := settle (e.surfaces.run run.actions) }

def initVisits (e : Engine σ ρ α) : List (Visit α) := phaseVisits .init Plugin.init id e.plugins e

def cursorVisits (e : Engine σ ρ α) : List (Visit α) :=
  phaseVisits .setCursor Plugin.setCursor id e.plugins e

def drawVisits (e : Engine σ ρ α) : List (Visit α) :=
  phaseVisits .draw Plugin.draw settleCanvas e.plugins e

def renderVisits (e : Engine σ ρ α) : List (Visit α) := drawVisits e.resolveScales.drawAxes

def renewVisits (e : Engine σ ρ α) : List (Visit α) :=
  cursorVisits e ++ unlessFailed (runSetCursor e) renderVisits

def openingVisits (e : Engine σ ρ α) : List (Visit α) :=
  initVisits e.resolveScales ++ unlessFailed (runInit e.resolveScales) renderVisits

def followVisits (e : Engine σ ρ α) : Call α → List (Visit α)
  | .enter => []
  | .move _ _ => cursorVisits e
  | .leave => cursorVisits e
  | .setData _ => renewVisits e
  | .setWindow _ _ => renewVisits e
  | .resetWindow => if e.scene.data.length = 0 then [] else renewVisits e
  | .render => renderVisits e

theorem runHooks_watched (hook : Hook) (body : Plugin σ α → HookBody σ α)
    (body' : Plugin (σ × List (Visit α)) α → HookBody (σ × List (Visit α)) α)
    (noted : ∀ p, body' p.watched = (body p).watched p.id hook)
    (settle : Surfaces α → Surfaces α) (plugins : List (Plugin σ α)) (e : Engine σ ρ α)
    (visits : List (Visit α)) (frames : List (Handover α)) :
    runHooks hook body' settle (plugins.map Plugin.watched) (e.watched visits frames) =
      (runHooks hook body settle plugins e).watched
        (visits ++ phaseVisits hook body settle plugins e) frames := by
  -- the notes so far are a parameter: every hook adds to those before it
  induction plugins generalizing e visits with
  | nil => simp [runHooks, phaseVisits, Outcome.done, Outcome.watched]
  | cons p rest ih =>
      simp only [List.map_cons, runHooks, phaseVisits, noted]
      simp only [HookBody.watched, Engine.watched, Plugin.watched]
      cases failed : (body p e.memory e.scene e.surfaces).fault with
      | some fault => rfl
      | none =>
          simp only []
          have later := ih { e with
            memory := (body p e.memory e.scene e.surfaces).memory
            surfaces := settle (e.surfaces.run (body p e.memory e.scene e.surfaces).actions) }
            (visits ++ [.hook p.id hook e.scene e.surfaces])
          rw [List.append_assoc] at later
          exact later

theorem runHooks_mirrors (hook : Hook) (body : Plugin σ α → HookBody σ α)
    (body' : Plugin (σ × List (Visit α)) α → HookBody (σ × List (Visit α)) α)
    (noted : ∀ p, body' p.watched = (body p).watched p.id hook)
    (settle : Surfaces α → Surfaces α) (e : Engine σ ρ α) :
    Mirrors (fun e => runHooks hook body' settle e.plugins e)
      (fun e => runHooks hook body settle e.plugins e) (phaseVisits hook body settle e.plugins e)
      e := by
  refine ⟨[], ?_⟩
  intro visits frames
  rw [List.append_nil]
  exact runHooks_watched hook body body' noted settle e.plugins e visits frames

theorem runInit_mirrors (e : Engine σ ρ α) : Mirrors runInit runInit (initVisits e) e :=
  runHooks_mirrors .init Plugin.init Plugin.init (fun _ => rfl) id e

theorem runSetCursor_mirrors (e : Engine σ ρ α) :
    Mirrors runSetCursor runSetCursor (cursorVisits e) e :=
  runHooks_mirrors .setCursor Plugin.setCursor Plugin.setCursor (fun _ => rfl) id e

theorem runDraw_mirrors (e : Engine σ ρ α) : Mirrors runDraw runDraw (drawVisits e) e :=
  runHooks_mirrors .draw Plugin.draw Plugin.draw (fun _ => rfl) settleCanvas e

theorem paint_mirrors (e : Engine σ ρ α) : Mirrors paint paint [] e := by
  refine ⟨[⟨.full, e.fullFrame, (e.backend.paint e.screen e.fullFrame).2⟩], ?_⟩
  intro visits frames
  rw [List.append_nil]
  exact accepted_watched e visits _ (e.backend.paint e.screen e.fullFrame)

theorem repaint_mirrors (e : Engine σ ρ α) : Mirrors repaint repaint [] e := by
  refine ⟨[⟨.overlay, e.overlayFrame, (e.backend.repaint e.screen e.overlayFrame).2⟩], ?_⟩
  intro visits frames
  rw [List.append_nil]
  exact accepted_watched e visits _ (e.backend.repaint e.screen e.overlayFrame)

theorem repaintIfDirty_mirrors (e : Engine σ ρ α) : Mirrors repaintIfDirty repaintIfDirty [] e := by
  cases dirty : e.surfaces.overlayDirty with
  | false =>
      refine ⟨[], ?_⟩
      intro visits frames
      simp [repaintIfDirty, watched, Outcome.watched, Outcome.done, dirty]
  | true =>
      obtain ⟨handed, same⟩ := repaint_mirrors e
      refine ⟨handed, ?_⟩
      intro visits frames
      have again : (e.watched visits frames).surfaces.overlayDirty = true := dirty
      simp only [repaintIfDirty, dirty, again, if_true]
      exact same visits frames

theorem render_mirrors (e : Engine σ ρ α) : Mirrors render render (renderVisits e) e := by
  have drawn := runDraw_mirrors e.resolveScales.drawAxes
  obtain ⟨handed, same⟩ := drawn.andThen_silent (paint_mirrors _)
  exact ⟨handed, fun visits frames => same visits frames⟩

theorem announce_mirrors (e : Engine σ ρ α) : Mirrors announce announce (cursorVisits e) e :=
  (runSetCursor_mirrors e).andThen_silent (repaintIfDirty_mirrors _)

theorem renew_mirrors (e : Engine σ ρ α) : Mirrors renew renew (renewVisits e) e :=
  (runSetCursor_mirrors e).andThen (render_mirrors _)

theorem opening_mirrors (e : Engine σ ρ α) : Mirrors opening opening (openingVisits e) e := by
  obtain ⟨handed, same⟩ := (runInit_mirrors e.resolveScales).andThen (render_mirrors _)
  exact ⟨handed, fun visits frames => same visits frames⟩

theorem follow_mirrors (e : Engine σ ρ α) (c : Call α) :
    Mirrors (follow · c) (follow · c) (followVisits e c) e := by
  cases c with
  | enter => exact repaintIfDirty_mirrors e
  | move x y => exact announce_mirrors e
  | leave => exact announce_mirrors e
  | setData data => exact renew_mirrors e
  | setWindow first last => exact renew_mirrors e
  | resetWindow =>
      by_cases empty : e.scene.data.length = 0
      · refine ⟨[], ?_⟩
        intro visits frames
        have again : (e.watched visits frames).scene.data.length = 0 := empty
        simp [follow, followVisits, empty, again, Outcome.done, Outcome.watched]
      · obtain ⟨handed, same⟩ := renew_mirrors e
        refine ⟨handed, ?_⟩
        intro visits frames
        have again : (e.watched visits frames).scene.data.length ≠ 0 := empty
        simp only [follow, followVisits, if_neg empty, if_neg again]
        exact same visits frames
  | render => exact render_mirrors e

/-! ### Calls, runs and openings -/

theorem watched_refusal (e : Engine σ ρ α) (visits : List (Visit α)) (frames : List (Handover α))
    (c : Call α) : (e.watched visits frames).refusal c = e.refusal c := by
  cases c <;> rfl

theorem watched_turn (e : Engine σ ρ α) (visits : List (Visit α)) (frames : List (Handover α))
    (c : Call α) : (e.watched visits frames).turn c = (e.turn c).watched visits frames := by
  cases c with
  | enter => rfl
  | move x y =>
      cases inside : e.surfaces.pointer.hovered <;>
        (simp only [turn, arrive, watched, inside]; rfl)
  | leave => rfl
  | setData data => rfl
  | setWindow first last =>
      cases made : Window.make first last e.scene.data.length <;> simp only [turn, watched, made]
      rfl
  | resetWindow =>
      cases full : Window.full? e.scene.data.length <;> simp only [turn, watched, full]
      rfl
  | render => rfl

theorem call_mirrors (e : Engine σ ρ α) (c : Call α) :
    Mirrors (call · c) (call · c) (match e.refusal c with
      | some _ => []
      | none => followVisits (e.turn c) c) e := by
  cases refused : e.refusal c with
  | some fault =>
      refine ⟨[], ?_⟩
      intro visits frames
      simp only [call_eq, watched_refusal, refused, List.append_nil]
      rfl
  | none =>
      obtain ⟨handed, same⟩ := follow_mirrors (e.turn c) c
      refine ⟨handed, ?_⟩
      intro visits frames
      simp only [call_eq, watched_refusal, refused, watched_turn]
      exact same visits frames

/-- The hooks of an accepted call are those of the work after its turn; a refused call has none. -/
theorem visits_eq (e : Engine σ ρ α) (c : Call α) :
    e.visits c = match e.refusal c with
      | some _ => []
      | none => followVisits (e.turn c) c := by
  obtain ⟨handed, same⟩ := call_mirrors e c
  simp only [visits, same [] []]
  rfl

theorem watched_call (e : Engine σ ρ α) (visits : List (Visit α)) (frames : List (Handover α))
    (c : Call α) : (e.watched visits frames).call c =
      (e.call c).watched (visits ++ e.visits c) (frames ++ e.frames c) := by
  obtain ⟨handed, same⟩ := call_mirrors e c
  have handedAll : e.frames c = handed := by
    simp only [Engine.frames, same [] []]
    rfl
  rw [visits_eq, handedAll]
  exact same visits frames

theorem watched_run (e : Engine σ ρ α) (calls : List (Call α)) (visits : List (Visit α))
    (frames : List (Handover α)) : ∃ entered, (e.watched visits frames).run calls =
      (e.run calls).watched entered (frames ++ e.runFrames calls) := by
  induction calls generalizing e visits frames with
  | nil => exact ⟨visits, by simp [run, runFrames]⟩
  | cons c rest ih =>
      obtain ⟨entered, same⟩ := ih (e.call c).engine (visits ++ e.visits c) (frames ++ e.frames c)
      refine ⟨entered, ?_⟩
      rw [List.append_assoc] at same
      simp only [run, runFrames, watched_call]
      exact same

theorem openWith_watched {backend : Backend ρ α} {screen : ρ} {config : Config σ α}
    {data : Dataset α} {e : Engine σ ρ α}
    (opened : openWith backend screen config data = .opened e) :
    openWith backend.watched (screen, []) config.watched data =
        .opened (e.watched (openVisits backend screen config data)
          (openFrames backend screen config data)) ∧
      ∃ first, LaidOut backend screen config data first ∧ first.opening = ⟨e, none⟩ ∧
        openVisits backend screen config data =
          optsVisits config.memory config.options config.plugins ++ openingVisits first := by
  obtain ⟨first, start, done⟩ := opened_cases opened
  obtain ⟨handed, same⟩ := opening_mirrors first
  have watchedOpen : openWith backend.watched (screen, []) config.watched data =
      .opened (e.watched (optsVisits config.memory config.options config.plugins ++
        openingVisits first) handed) := by
    -- every check before the first hook sees the same options and data
    have laid : layOut first.options data = .ok first.scene.box := by
      simp only [layOut, start.options, start.valid, start.box, bind, Except.bind]
    have begun := same (optsVisits config.memory config.options config.plugins) []
    rw [done, List.nil_append] at begun
    unfold openWith
    simp only [Config.watched, checkIds_watched, start.ids, runOpts_watched, start.opts, laid,
      List.nil_append]
    refine Eq.trans (congrArg Engine.start ?_) (start_done begun)
    simp only [Engine.watched, start.plugins, start.backend, start.screen, start.surfaces]
    rw [← start.scene]
  refine ⟨?_, first, start, done, ?_⟩
  · simp only [openVisits, openFrames, watchedOpen]
    rfl
  · simp only [openVisits, watchedOpen]
    rfl

end Engine
end LadderChart
