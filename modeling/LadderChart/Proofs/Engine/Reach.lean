import LadderChart.Plugin.Standard
import LadderChart.Proofs.Engine.Work

/-!
Reachable engines: opened on some data, then driven by calls that may fail. A statement about all of
them needs three things: the engine as it is laid out, every turn, and every step of work.
-/

namespace LadderChart

namespace Opening
variable {σ ρ α : Type}

def passes (test : Engine σ ρ α → Bool) : Opening σ ρ α → Bool
  | .refused _ _ _ => false
  | .opened e => test e

theorem passes_iff (test : Engine σ ρ α → Bool) (o : Opening σ ρ α) :
    o.passes test = true ↔ ∃ e, o = .opened e ∧ test e = true := by
  cases o with
  | refused memory screen fault => simp [passes]
  | opened e => simp [passes]

end Opening

def twoColumns : Dataset Float := .dense [1.0, 2.0] [[10.0], [20.0]] [[1.0], [2.0]] ⟨0.0, 2.0⟩

def twoColumnChart : Opening Band (Recorder Float) Float :=
  Engine.openWith Recorder.backend .fresh (.standard .standard) twoColumns

namespace Engine
variable {σ ρ α : Type} [Scalar α]

/-- An engine as it stands before its first hook. -/
structure LaidOut (backend : Backend ρ α) (screen : ρ) (config : Config σ α) (data : Dataset α)
    (first : Engine σ ρ α) : Prop where
  ids : Plugin.checkIds [] config.plugins = .ok ()
  opts : Plugin.runOpts config.memory config.options config.plugins =
    (first.memory, .ok first.options)
  options : first.options.check = .ok ()
  valid : data.check = .ok ()
  box : Box.ofViewport first.options.viewport first.options.insets first.options.pixelRatio =
    .ok first.scene.box
  scene : first.scene = firstScene first.options first.scene.box data
  surfaces : first.surfaces = .blank
  plugins : first.plugins = config.plugins
  backend : first.backend = backend
  screen : first.screen = screen

def opening (e : Engine σ ρ α) : Outcome σ ρ α := e.resolveScales.runInit.andThen render

theorem start_opened {first e : Engine σ ρ α} (opened : start first = .opened e) :
    first.opening = ⟨e, none⟩ := by
  unfold start at opened
  unfold opening
  generalize first.resolveScales.runInit.andThen render = outcome at opened ⊢
  obtain ⟨reached, fault⟩ := outcome
  cases fault with
  | some fault => cases opened
  | none =>
      cases opened
      rfl

theorem start_done {first e : Engine σ ρ α} (done : first.opening = ⟨e, none⟩) :
    start first = .opened e := by
  unfold opening at done
  simp only [start, done]

theorem layOut_eq_ok (o : Options α) (data : Dataset α) (box : Box α)
    (laid : layOut o data = .ok box) :
    o.check = .ok () ∧ data.check = .ok () ∧
      Box.ofViewport o.viewport o.insets o.pixelRatio = .ok box := by
  simp only [layOut, bind, Except.bind] at laid
  cases options : o.check with
  | error fault => simp [options] at laid
  | ok _ =>
      cases valid : data.check with
      | error fault => simp [options, valid] at laid
      | ok _ => exact ⟨rfl, rfl, by simpa [options, valid] using laid⟩

/-- An engine that was opened was laid out and then did all it does first. -/
theorem opened_cases {backend : Backend ρ α} {screen : ρ} {config : Config σ α} {data : Dataset α}
    {e : Engine σ ρ α} (opened : openWith backend screen config data = .opened e) :
    ∃ first, LaidOut backend screen config data first ∧ first.opening = ⟨e, none⟩ := by
  unfold openWith at opened
  split at opened
  · cases opened
  · rename_i ids
    split at opened
    · cases opened
    · rename_i memory o opts
      split at opened
      · cases opened
      · rename_i box laid
        obtain ⟨options, valid, boxed⟩ := layOut_eq_ok o data box laid
        let first : Engine σ ρ α :=
          { options := o
            plugins := config.plugins
            memory := memory
            backend := backend
            screen := screen
            scene := firstScene o box data
            surfaces := .blank }
        refine ⟨first, ⟨ids, opts, options, valid, boxed, rfl, rfl, rfl, rfl, rfl⟩, ?_⟩
        exact start_opened opened

theorem opening_works {may : Action α → Prop} (e : Engine σ ρ α) (keeps : e.Keeps may) :
    Works may e e.opening.engine := by
  have resolved : Works may e e.resolveScales := .single (.resolve e)
  have begun : Works may e e.resolveScales.runInit.engine :=
    resolved.trans (runInit_works _ (resolved.steady.keeps keeps))
  exact andThen_works begun (render_works _ (begun.steady.keeps keeps))

/-- What holds after an accepted turn and is kept by every step of work holds after the call. -/
theorem call_reaches {may : Action α → Prop} {P : Engine σ ρ α → Prop} (e : Engine σ ρ α)
    (keeps : e.Keeps may) (c : Call α) (refused : e.refusal c ≠ none → P e)
    (turned : e.refusal c = none → P (e.turn c)) (worked : ∀ e e', Work may e e' → P e → P e') :
    P (e.call c).engine := by
  rw [call_eq]
  cases refusal : e.refusal c with
  | some fault => exact refused (by simp [refusal])
  | none =>
      have keepsTurn : (e.turn c).Keeps may := by
        intro p member
        exact keeps p ((turn_setting e c).2.1 ▸ member)
      exact (follow_works _ keepsTurn c).keep worked (turned refusal)

theorem call_setting (e : Engine σ ρ α) (c : Call α) :
    (e.call c).engine.options = e.options ∧ (e.call c).engine.plugins = e.plugins := by
  have any : e.Keeps fun _ => True := fun p _ => p.keeps_any
  refine call_reaches (P := fun e' => e'.options = e.options ∧ e'.plugins = e.plugins) e any c
    (fun _ => ⟨rfl, rfl⟩) ?_ ?_
  · intro _
    exact ⟨(turn_setting e c).1, (turn_setting e c).2.1⟩
  · intro e₁ e₂ step before
    exact ⟨step.steady.options.trans before.1, step.steady.plugins.trans before.2⟩

def runFaults (e : Engine σ ρ α) : List (Call α) → List (Option Fault)
  | [] => []
  | c :: rest => (e.call c).fault :: runFaults (e.call c).engine rest

theorem Keeps.call {may : Action α → Prop} {e : Engine σ ρ α} (keeps : e.Keeps may) (c : Call α) :
    (e.call c).engine.Keeps may := by
  intro p member
  exact keeps p ((call_setting e c).2 ▸ member)

theorem run_keeps {may : Action α → Prop} {P : Engine σ ρ α → Prop} (calls : List (Call α))
    (turned : ∀ c ∈ calls, ∀ e, e.refusal c = none → P e → P (e.turn c))
    (worked : ∀ e e', Work may e e' → P e → P e') (e : Engine σ ρ α) (keeps : e.Keeps may)
    (before : P e) : P (e.run calls) := by
  induction calls generalizing e with
  | nil => exact before
  | cons c rest ih =>
      have after : P (e.call c).engine := call_reaches e keeps c (fun _ => before)
        (fun accepted => turned c List.mem_cons_self e accepted before) worked
      exact ih (fun d member => turned d (List.mem_cons_of_mem c member)) _ (keeps.call c) after

/-- An engine that was opened was laid out, and all its work kept to the allowed actions. -/
theorem opened_works {may : Action α → Prop} {backend : Backend ρ α} {screen : ρ}
    {config : Config σ α} {data : Dataset α} {e : Engine σ ρ α}
    (opened : openWith backend screen config data = .opened e)
    (keeps : ∀ p ∈ config.plugins, p.Keeps may) :
    ∃ first, LaidOut backend screen config data first ∧ Works may first e ∧ e.Keeps may := by
  obtain ⟨first, start, done⟩ := opened_cases opened
  have keepsFirst : first.Keeps may := by
    intro p member
    exact keeps p (start.plugins ▸ member)
  have work : Works may first e := by
    have all := opening_works first keepsFirst
    rwa [done] at all
  exact ⟨first, start, work, work.steady.keeps keepsFirst⟩

/-- A statement about all reachable engines. -/
theorem reach_keeps {may : Action α → Prop} {P : Engine σ ρ α → Prop} {backend : Backend ρ α}
    {screen : ρ} {config : Config σ α} {data : Dataset α} {e : Engine σ ρ α}
    (opened : openWith backend screen config data = .opened e)
    (keeps : ∀ p ∈ config.plugins, p.Keeps may)
    (laid : ∀ first, LaidOut backend screen config data first → P first)
    (worked : ∀ e e', Work may e e' → P e → P e') (calls : List (Call α))
    (turned : ∀ c ∈ calls, ∀ e, e.refusal c = none → P e → P (e.turn c)) : P (e.run calls) := by
  obtain ⟨first, start, work, keepsOpened⟩ := opened_works opened keeps
  exact run_keeps calls turned worked e keepsOpened (work.keep worked (laid first start))

end Engine
end LadderChart
