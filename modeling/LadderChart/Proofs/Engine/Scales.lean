import LadderChart.Plugin.Script
import LadderChart.Proofs.Engine.Watch

/-!
Which data and window the scales belong to. A full pass settles the scales, so they always belong to
the data and window of the last one. The draw hooks come after that, and so do the init hooks; the
cursor hooks of an update come before, so they see the new data beside the old scales, and if one of
them fails the update stops there.
-/

namespace LadderChart

/-- What scales are resolved from. -/
structure Basis (α : Type) where
  data : Dataset α
  window : Option Window

namespace Scene
variable {α : Type}

def basis (s : Scene α) : Basis α := ⟨s.data, s.window⟩

/-- Both scales are the ones resolved from some data and window. -/
structure ScaledOn [Scalar α] (s : Scene α) (o : Options α) (b : Basis α) : Prop where
  x : s.xScale = Engine.resolveAxis o b.data b.window .x
  y : s.yScale = Engine.resolveAxis o b.data b.window .y

end Scene

/-- A visit to a hook that is shown some scene. -/
def Visit.Shows {α : Type} (hook : Hook) (scene : Scene α) (visit : Visit α) : Prop :=
  ∃ id surfaces, visit = .hook id hook scene surfaces

def Call.isRender {α : Type} : Call α → Bool
  | .render => true
  | _ => false

namespace Engine
variable {σ ρ α : Type} [Scalar α]

/-- The call changes data or window, if it is accepted. -/
def updates (e : Engine σ ρ α) : Call α → Bool
  | .setData _ => true
  | .setWindow _ _ => true
  | .resetWindow => decide (e.scene.data.length ≠ 0)
  | _ => false

/-- The call comes to a full pass. -/
def settles (e : Engine σ ρ α) (c : Call α) : Bool :=
  (e.refusal c).isNone && (c.isRender || e.updates c && (runSetCursor (e.turn c)).fault.isNone)

/-- The call is an accepted update that stops at its cursor hooks. -/
def stalls (e : Engine σ ρ α) (c : Call α) : Bool :=
  (e.refusal c).isNone && e.updates c && (runSetCursor (e.turn c)).fault.isSome

/-- What the scales belong to after a call, if they belonged to `b` before it. -/
def settled (e : Engine σ ρ α) (b : Basis α) (c : Call α) : Basis α :=
  if e.settles c then (e.turn c).scene.basis else b

def runSettled (e : Engine σ ρ α) (b : Basis α) : List (Call α) → Basis α
  | [] => b
  | c :: rest => runSettled (e.call c).engine (e.settled b c) rest

/-- Whether an update stalled since the last full pass. -/
def stalled (e : Engine σ ρ α) (before : Bool) (c : Call α) : Bool :=
  !e.settles c && (before || e.stalls c)

def runStalled (e : Engine σ ρ α) (before : Bool) : List (Call α) → Bool
  | [] => before
  | c :: rest => runStalled (e.call c).engine (e.stalled before c) rest

/-! ### Scenes -/

theorem resolve_scaled (e : Engine σ ρ α) :
    e.resolveScales.scene.ScaledOn e.options e.resolveScales.scene.basis := ⟨rfl, rfl⟩

theorem settled_resolve {e : Engine σ ρ α} (settled : e.scene.ScaledOn e.options e.scene.basis) :
    e.resolveScales.scene = e.scene := by
  obtain ⟨x, y⟩ := settled
  simp only [Scene.basis] at x y
  simp only [resolveScales, ← x, ← y]

theorem resolve_same {e e' : Engine σ ρ α} (options : e'.options = e.options)
    (scene : e'.scene = e.scene) : e'.resolveScales.scene = e.resolveScales.scene := by
  simp only [resolveScales, options, scene]

theorem runHooks_scene (hook : Hook) (body : Plugin σ α → HookBody σ α)
    (settle : Surfaces α → Surfaces α) (plugins : List (Plugin σ α)) (e : Engine σ ρ α) :
    (runHooks hook body settle plugins e).engine.options = e.options ∧
      (runHooks hook body settle plugins e).engine.scene = e.scene := by
  induction plugins generalizing e with
  | nil => exact ⟨rfl, rfl⟩
  | cons p rest ih =>
      simp only [runHooks]
      split
      · exact ⟨rfl, rfl⟩
      · exact ih _

omit [Scalar α] in
theorem andThen_scene {o : Outcome σ ρ α} {next : Engine σ ρ α → Outcome σ ρ α} {s : Scene α}
    (before : o.engine.scene = s) (kept : ∀ e, (next e).engine.scene = e.scene) :
    (o.andThen next).engine.scene = s := by
  unfold Outcome.andThen
  split
  · exact before
  · exact (kept o.engine).trans before

theorem repaintIfDirty_scene (e : Engine σ ρ α) : e.repaintIfDirty.engine.scene = e.scene := by
  unfold repaintIfDirty
  split
  · exact accepted_scene e _
  · rfl

theorem render_scene (e : Engine σ ρ α) : e.render.engine.scene = e.resolveScales.scene :=
  andThen_scene (runHooks_scene .draw Plugin.draw settleCanvas _ e.resolveScales.drawAxes).2
    fun e' => accepted_scene e' _

theorem announce_scene (e : Engine σ ρ α) : e.announce.engine.scene = e.scene :=
  andThen_scene (runHooks_scene .setCursor Plugin.setCursor id _ e).2 repaintIfDirty_scene

theorem renew_scene (e : Engine σ ρ α) : e.renew.engine.scene =
    if (runSetCursor e).fault.isNone then e.resolveScales.scene else e.scene := by
  obtain ⟨options, scene⟩ := runHooks_scene .setCursor Plugin.setCursor id e.plugins e
  unfold renew Outcome.andThen
  cases failed : (runSetCursor e).fault with
  | some fault => exact scene
  | none => exact (render_scene _).trans (resolve_same options scene)

theorem turn_basis (e : Engine σ ρ α) (c : Call α) (still : e.updates c = false) :
    (e.turn c).scene.basis = e.scene.basis := by
  cases c with
  | setData data => cases still
  | setWindow first last => cases still
  | move x y =>
      simp only [turn, arrive]
      split <;> rfl
  | resetWindow =>
      have empty : e.scene.data.length = 0 := by simpa [updates] using still
      simp only [turn, empty]
      rfl
  | _ => rfl

theorem turn_reset_length (e : Engine σ ρ α) :
    (e.turn .resetWindow).scene.data.length = e.scene.data.length := by
  simp only [turn]
  split <;> rfl

theorem follow_scene (e : Engine σ ρ α) (c : Call α) (accepted : e.refusal c = none) :
    ((e.turn c).follow c).engine.scene =
      if e.settles c then (e.turn c).resolveScales.scene else (e.turn c).scene := by
  cases c with
  | enter => exact repaintIfDirty_scene _
  | move x y => exact announce_scene _
  | leave => exact announce_scene _
  | setData data =>
      simp only [follow, settles, accepted, updates, renew_scene, Call.isRender, Option.isNone_none,
        Bool.true_and, Bool.false_or]
  | setWindow first last =>
      simp only [follow, settles, accepted, updates, renew_scene, Call.isRender, Option.isNone_none,
        Bool.true_and, Bool.false_or]
  | resetWindow =>
      by_cases empty : e.scene.data.length = 0
      · have quiet : (e.turn .resetWindow).scene.data.length = 0 := by
          rw [turn_reset_length]
          exact empty
        simp [follow, quiet, settles, updates, empty, Call.isRender, Outcome.done]
      · have filled : (e.turn .resetWindow).scene.data.length ≠ 0 := by
          rw [turn_reset_length]
          exact empty
        have active : e.updates .resetWindow = true := decide_eq_true empty
        simp only [follow, if_neg filled, settles, accepted, active, renew_scene, Call.isRender,
          Option.isNone_none, Bool.true_and, Bool.false_or]
  | render => exact render_scene _

/-! ### Calls -/

variable {e : Engine σ ρ α} {b : Basis α}

theorem turn_scaled (scaled : e.scene.ScaledOn e.options b) (c : Call α) :
    (e.turn c).scene.ScaledOn e.options b := by
  obtain ⟨x, y, _⟩ := turn_ranges e c
  constructor
  · rw [x]
    exact scaled.x
  · rw [y]
    exact scaled.y

/-- A turn that is no update leaves scales settled. -/
theorem turn_settled (settled : e.scene.ScaledOn e.options e.scene.basis) (c : Call α)
    (still : e.updates c = false) :
    (e.turn c).scene.ScaledOn (e.turn c).options (e.turn c).scene.basis := by
  rw [(turn_setting e c).1, turn_basis e c still]
  exact turn_scaled settled c

theorem settled_turn_scaled (e : Engine σ ρ α) (c : Call α) :
    (e.turn c).resolveScales.scene.ScaledOn e.options (e.turn c).scene.basis := by
  have fresh := resolve_scaled (e.turn c)
  rw [(turn_setting e c).1] at fresh
  exact fresh

theorem call_scaled (scaled : e.scene.ScaledOn e.options b) (c : Call α) :
    (e.call c).engine.scene.ScaledOn (e.call c).engine.options (e.settled b c) := by
  rw [(call_setting e c).1, call_eq, settled]
  cases refused : e.refusal c with
  | some fault =>
      have idle : e.settles c = false := by simp [settles, refused]
      simp only [idle, Bool.false_eq_true, if_false]
      exact scaled
  | none =>
      simp only [follow_scene e c refused]
      split
      · exact settled_turn_scaled e c
      · exact turn_scaled scaled c

/-- Only a stalled update leaves scales that belong to something else. -/
theorem settled_basis {before : Bool} (same : before = false → b = e.scene.basis) (c : Call α)
    (fine : e.stalled before c = false) : e.settled b c = (e.call c).engine.scene.basis := by
  rw [call_eq, settled]
  cases refused : e.refusal c with
  | some fault =>
      have idle : e.settles c = false := by simp [settles, refused]
      simp only [stalled, idle, Bool.not_false, Bool.true_and, Bool.or_eq_false_iff] at fine
      simp only [idle, Bool.false_eq_true, if_false]
      exact same fine.1
  | none =>
      simp only [follow_scene e c refused]
      split
      · rfl
      · rename_i unsettled
        have idle : e.settles c = false := by simpa using unsettled
        simp only [stalled, idle, Bool.not_false, Bool.true_and, Bool.or_eq_false_iff] at fine
        -- the call neither came to a pass nor stalled, so it was no update
        have still : e.updates c = false := by
          cases updating : e.updates c with
          | false => rfl
          | true =>
              cases failed : (runSetCursor (e.turn c)).fault with
              | none => simp [settles, refused, updating, failed] at idle
              | some fault => simp [stalls, refused, updating, failed] at fine
        rw [turn_basis e c still]
        exact same fine.1

theorem run_scaled (scaled : e.scene.ScaledOn e.options b) (calls : List (Call α)) :
    (e.run calls).options = e.options ∧
      (e.run calls).scene.ScaledOn e.options (e.runSettled b calls) := by
  induction calls generalizing e b with
  | nil => exact ⟨rfl, scaled⟩
  | cons c rest ih =>
      obtain ⟨options, later⟩ := ih (call_scaled scaled c)
      rw [(call_setting e c).1] at options later
      exact ⟨options, later⟩

theorem runSettled_basis {before : Bool} (same : before = false → b = e.scene.basis)
    (calls : List (Call α)) (fine : e.runStalled before calls = false) :
    e.runSettled b calls = (e.run calls).scene.basis := by
  induction calls generalizing e b before with
  | nil => exact same fine
  | cons c rest ih => exact ih (settled_basis same c) fine

/-! ### Hooks -/

theorem phaseVisits_shown (hook : Hook) (body : Plugin σ α → HookBody σ α)
    (settle : Surfaces α → Surfaces α) (plugins : List (Plugin σ α)) (e : Engine σ ρ α)
    (visit : Visit α) (entered : visit ∈ phaseVisits hook body settle plugins e) :
    visit.Shows hook e.scene := by
  induction plugins generalizing e with
  | nil => cases entered
  | cons p rest ih =>
      simp only [phaseVisits] at entered
      rcases List.mem_cons.mp entered with first | later
      · exact ⟨_, _, first⟩
      · split at later
        · cases later
        · have shown := ih _ later
          exact shown

theorem cursorVisits_shown (e : Engine σ ρ α) (visit : Visit α) (entered : visit ∈ cursorVisits e) :
    visit.Shows .setCursor e.scene :=
  phaseVisits_shown _ _ _ _ e visit entered

theorem renderVisits_shown (e : Engine σ ρ α) (visit : Visit α) (entered : visit ∈ renderVisits e) :
    visit.Shows .draw e.resolveScales.scene :=
  phaseVisits_shown _ _ _ _ e.resolveScales.drawAxes visit entered

omit [Scalar α] in
theorem mem_unlessFailed (o : Outcome σ ρ α) (later : Engine σ ρ α → List (Visit α))
    (visit : Visit α) (entered : visit ∈ unlessFailed o later) : visit ∈ later o.engine := by
  unfold unlessFailed at entered
  split at entered
  · cases entered
  · exact entered

theorem renewVisits_shown (e : Engine σ ρ α) (visit : Visit α) (entered : visit ∈ renewVisits e) :
    visit.Shows .setCursor e.scene ∨ visit.Shows .draw e.resolveScales.scene := by
  obtain ⟨options, scene⟩ := runHooks_scene .setCursor Plugin.setCursor id e.plugins e
  rcases List.mem_append.mp entered with told | drawn
  · exact .inl (cursorVisits_shown e visit told)
  · have shown := renderVisits_shown _ visit (mem_unlessFailed _ _ visit drawn)
    rw [show (runSetCursor e).engine.resolveScales.scene = e.resolveScales.scene from
      resolve_same options scene] at shown
    exact .inr shown

/-- Cursor hooks see the scene as the turn of the call left it, draw hooks with scales resolved. -/
theorem visits_shown (e : Engine σ ρ α) (c : Call α) (visit : Visit α)
    (entered : visit ∈ e.visits c) : visit.Shows .setCursor (e.turn c).scene ∨
      visit.Shows .draw (e.turn c).resolveScales.scene := by
  rw [visits_eq] at entered
  split at entered
  · cases entered
  · cases c with
    | enter => cases entered
    | move x y => exact .inl (cursorVisits_shown _ visit entered)
    | leave => exact .inl (cursorVisits_shown _ visit entered)
    | setData data => exact renewVisits_shown _ visit entered
    | setWindow first last => exact renewVisits_shown _ visit entered
    | resetWindow =>
        simp only [followVisits] at entered
        split at entered
        · cases entered
        · exact renewVisits_shown _ visit entered
    | render => exact .inr (renderVisits_shown _ visit entered)

/-- The init hooks find the scales settled, and leave them so. -/
theorem init_scene (first : Engine σ ρ α) :
    (runInit first.resolveScales).engine.resolveScales.scene = first.resolveScales.scene := by
  obtain ⟨options, scene⟩ := runHooks_scene .init Plugin.init id first.plugins first.resolveScales
  have again : (runInit first.resolveScales).engine.resolveScales.scene =
      first.resolveScales.resolveScales.scene := resolve_same options scene
  exact again

theorem openingVisits_shown (first : Engine σ ρ α) (visit : Visit α)
    (entered : visit ∈ openingVisits first) : visit.Shows .init first.resolveScales.scene ∨
      visit.Shows .draw first.resolveScales.scene := by
  rcases List.mem_append.mp entered with begun | drawn
  · exact .inl (phaseVisits_shown _ _ _ _ first.resolveScales visit begun)
  · have shown := renderVisits_shown _ visit (mem_unlessFailed _ _ visit drawn)
    rw [init_scene first] at shown
    exact .inr shown

omit [Scalar α] in
theorem optsVisits_shown (memory : σ) (o : Options α) (plugins : List (Plugin σ α))
    (visit : Visit α) (entered : visit ∈ optsVisits memory o plugins) :
    ∃ id before, visit = .opts id before := by
  induction plugins generalizing memory o with
  | nil => cases entered
  | cons p rest ih =>
      simp only [optsVisits] at entered
      rcases List.mem_cons.mp entered with first | later
      · exact ⟨_, _, first⟩
      · split at later
        · cases later
        · exact ih _ _ later

theorem opened_scaled {first : Engine σ ρ α} (done : first.opening = ⟨e, none⟩) :
    e.options = first.options ∧ e.scene = first.resolveScales.scene := by
  have any : first.Keeps fun _ => True := fun p _ => p.keeps_any
  have steady := (opening_works first any).steady.options
  -- the init hooks did not fail, so the opening went on to a full pass
  have begun : first.opening.engine = (runInit first.resolveScales).engine.render.engine := by
    unfold opening Outcome.andThen at done ⊢
    cases failed : (runInit first.resolveScales).fault with
    | none => rfl
    | some fault =>
        simp only [failed] at done
        rw [done] at failed
        cases failed
  rw [done] at steady begun
  refine ⟨steady, ?_⟩
  have rendered := render_scene (runInit first.resolveScales).engine
  rw [← begun] at rendered
  exact rendered.trans (init_scene first)

/-- What the scales belong to, at every hook that is entered and whenever a call returns. It is the
data and window of the last full pass: those of the moment, unless an update stalled since then. The
init and draw hooks always see scales that belong to the scene beside them; the cursor hooks see
those of the last pass, beside data and window as the call changed them. -/
theorem scales_follow_passes {backend : Backend ρ α} {screen : ρ} {config : Config σ α}
    {data : Dataset α} (opened : openWith backend screen config data = .opened e)
    (calls : List (Call α)) :
    (∀ visit ∈ openVisits backend screen config data, (∃ id o, visit = .opts id o) ∨
      ∃ scene, (visit.Shows .init scene ∨ visit.Shows .draw scene) ∧
        scene.ScaledOn e.options scene.basis) ∧
    (e.run calls).scene.ScaledOn (e.run calls).options (e.runSettled e.scene.basis calls) ∧
    (e.runStalled false calls = false →
      e.runSettled e.scene.basis calls = (e.run calls).scene.basis) ∧
    ∀ c, ∀ visit ∈ (e.run calls).visits c,
      (∃ scene, visit.Shows .draw scene ∧ scene.ScaledOn (e.run calls).options scene.basis) ∨
      ∃ scene, visit.Shows .setCursor scene ∧
        scene.ScaledOn (e.run calls).options (e.runSettled e.scene.basis calls) ∧
        scene.basis = ((e.run calls).turn c).scene.basis := by
  obtain ⟨_, first, start, done, entered⟩ := openWith_watched opened
  obtain ⟨options, scene⟩ := opened_scaled done
  have fresh : first.resolveScales.scene.ScaledOn e.options first.resolveScales.scene.basis := by
    rw [options]
    exact resolve_scaled first
  obtain ⟨same, scaled⟩ := run_scaled (e := e) (b := e.scene.basis) (scene ▸ fresh) calls
  rw [← same] at scaled
  refine ⟨?_, scaled, runSettled_basis (fun _ => rfl) calls, ?_⟩
  · intro visit member
    rw [entered] at member
    rcases List.mem_append.mp member with opts | hooks
    · exact .inl (optsVisits_shown _ _ _ visit opts)
    · exact .inr ⟨_, openingVisits_shown first visit hooks, fresh⟩
  · intro c visit member
    rcases visits_shown _ c visit member with told | drawn
    · exact .inr ⟨_, told, turn_scaled scaled c, rfl⟩
    · exact .inl ⟨_, drawn, settled_turn_scaled _ c⟩

def narrow : Script Float := ⟨"narrow", [], [], [.failLength (.data (.other "too wide")) 3], []⟩

def narrowChart : Opening (Desk Float) (Recorder Float) Float :=
  openWith Recorder.backend .fresh ⟨.standard, [narrow.plugin], .fresh 0⟩ twoColumns

def threeColumns : Dataset Float :=
  .dense [1.0, 2.0, 3.0] [[10.0], [20.0], [30.0]] [[1.0], [2.0], [3.0]] ⟨0.0, 3.0⟩

/-- After the refused update the scales belong to the two columns still. -/
theorem narrow_scaled : ∃ e, narrowChart = .opened e ∧ e.stalls (.setData threeColumns) = true ∧
    (e.run [.setData threeColumns]).scene.data = threeColumns ∧
    (e.run [.setData threeColumns]).scene.ScaledOn (e.run [.setData threeColumns]).options
      e.scene.basis := by
  have evaluated : narrowChart.passes (fun e => e.stalls (.setData threeColumns) &&
      !e.settles (.setData threeColumns) &&
      decide ((e.run [.setData threeColumns]).scene.data = threeColumns)) = true := by
    decide +kernel
  obtain ⟨e, opened, test⟩ := (Opening.passes_iff _ _).mp evaluated
  simp only [Bool.and_eq_true, Bool.not_eq_true', decide_eq_true_eq] at test
  obtain ⟨⟨stalled, unsettled⟩, loaded⟩ := test
  have scaled := (scales_follow_passes opened [.setData threeColumns]).2.1
  simp only [runSettled, settled, unsettled, Bool.false_eq_true, if_false] at scaled
  exact ⟨e, opened, stalled, loaded, scaled⟩

/-- And they are not those of the data that are stored. -/
theorem narrow_stale : ∃ e, narrowChart = .opened e ∧
    ¬ (e.run [.setData threeColumns]).scene.ScaledOn (e.run [.setData threeColumns]).options
      (e.run [.setData threeColumns]).scene.basis := by
  have evaluated : narrowChart.passes (fun e =>
      let reached := e.run [.setData threeColumns]
      decide (reached.scene.xScale ≠
        resolveAxis reached.options reached.scene.data reached.scene.window .x)) = true := by
    decide +kernel
  obtain ⟨e, opened, test⟩ := (Opening.passes_iff _ _).mp evaluated
  refine ⟨e, opened, ?_⟩
  intro fresh
  exact of_decide_eq_true test fresh.x

end Engine
end LadderChart
