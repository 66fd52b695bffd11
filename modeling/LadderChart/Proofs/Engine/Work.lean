import LadderChart.Proofs.Engine.Turn

/-!
The work that follows a turn, step by step, and the two ways to use it: what every step keeps is
kept by the opening of an engine and by every call, and a statement about all reachable engines
needs only the engine as it is laid out, the turns, and one case for each kind of step.
-/

namespace LadderChart.Engine
variable {σ ρ α : Type}

/-- What no work changes. -/
structure Steady (e e' : Engine σ ρ α) : Prop where
  options : e'.options = e.options
  plugins : e'.plugins = e.plugins
  backend : e'.backend = e.backend
  viewport : e'.scene.viewport = e.scene.viewport
  pixelRatio : e'.scene.pixelRatio = e.scene.pixelRatio
  box : e'.scene.box = e.scene.box
  data : e'.scene.data = e.scene.data
  window : e'.scene.window = e.scene.window
  cursor : e'.scene.cursor = e.scene.cursor
  hovered : e'.surfaces.pointer.hovered = e.surfaces.pointer.hovered

theorem Steady.refl (e : Engine σ ρ α) : Steady e e := by
  constructor <;> rfl

theorem Steady.trans {e₁ e₂ e₃ : Engine σ ρ α} (a : Steady e₁ e₂) (b : Steady e₂ e₃) :
    Steady e₁ e₃ where
  options := b.options.trans a.options
  plugins := b.plugins.trans a.plugins
  backend := b.backend.trans a.backend
  viewport := b.viewport.trans a.viewport
  pixelRatio := b.pixelRatio.trans a.pixelRatio
  box := b.box.trans a.box
  data := b.data.trans a.data
  window := b.window.trans a.window
  cursor := b.cursor.trans a.cursor
  hovered := b.hovered.trans a.hovered

/-- Every plugin of the engine takes only actions of some kind. -/
def Keeps (may : Action α → Prop) (e : Engine σ ρ α) : Prop := ∀ p ∈ e.plugins, p.Keeps may

theorem Steady.keeps {may : Action α → Prop} {e e' : Engine σ ρ α} (steady : Steady e e')
    (keeps : e.Keeps may) : e'.Keeps may := by
  intro p member
  exact keeps p (steady.plugins ▸ member)

/-- A frame changes the screen, and marks the overlays clean if it is accepted. -/
theorem accepted_cases (e : Engine σ ρ α) (answer : ρ × Option Fault) :
    ((e.accepted answer).fault = none ∧ answer.2 = none ∧ (e.accepted answer).engine =
        { e with screen := answer.1, surfaces := e.surfaces.markClean }) ∨
      ((e.accepted answer).fault ≠ none ∧ answer.2 ≠ none ∧
        (e.accepted answer).engine = { e with screen := answer.1 }) := by
  obtain ⟨screen, fault⟩ := answer
  cases fault with
  | none => exact .inl ⟨rfl, rfl, rfl⟩
  | some fault => exact .inr ⟨by simp [accepted], by simp, rfl⟩

theorem accepted_steady (e : Engine σ ρ α) (answer : ρ × Option Fault) :
    Steady e (e.accepted answer).engine := by
  rcases accepted_cases e answer with ⟨_, _, same⟩ | ⟨_, _, same⟩
  · rw [same]
    constructor <;> rfl
  · rw [same]
    constructor <;> rfl

theorem accepted_scene (e : Engine σ ρ α) (answer : ρ × Option Fault) :
    (e.accepted answer).engine.scene = e.scene := by
  rcases accepted_cases e answer with ⟨_, _, same⟩ | ⟨_, _, same⟩ <;> rw [same]

theorem accepted_canvas (e : Engine σ ρ α) (answer : ρ × Option Fault) :
    (e.accepted answer).engine.surfaces.canvas = e.surfaces.canvas := by
  rcases accepted_cases e answer with ⟨_, _, same⟩ | ⟨_, _, same⟩
  · rw [same]
    rfl
  · rw [same]

theorem accepted_memory (e : Engine σ ρ α) (answer : ρ × Option Fault) :
    (e.accepted answer).engine.memory = e.memory := by
  rcases accepted_cases e answer with ⟨_, _, same⟩ | ⟨_, _, same⟩ <;> rw [same]

theorem bind_hovered (p : PointerSurface α) (h : Handle) : (p.bind h).hovered = p.hovered := by
  unfold PointerSurface.bind
  split <;> rfl

variable [Scalar α]

/-- One step of work. A frame that is handed over may be refused. -/
inductive Work (may : Action α → Prop) : Engine σ ρ α → Engine σ ρ α → Prop where
  | remember (e : Engine σ ρ α) (memory : σ) : Work may e { e with memory := memory }
  | act (e : Engine σ ρ α) (a : Action α) (allowed : may a) :
      Work may e { e with surfaces := e.surfaces.apply a }
  | settle (e : Engine σ ρ α) : Work may e { e with surfaces := settleCanvas e.surfaces }
  | resolve (e : Engine σ ρ α) : Work may e e.resolveScales
  | axes (e : Engine σ ρ α) : Work may e e.drawAxes
  | paint (e : Engine σ ρ α) : Work may e e.paint.engine
  | repaint (e : Engine σ ρ α) : Work may e e.repaint.engine

abbrev Works (may : Action α → Prop) : Engine σ ρ α → Engine σ ρ α → Prop :=
  Relation.ReflTransGen (Work may)

theorem apply_hovered (s : Surfaces α) (a : Action α) :
    (s.apply a).pointer.hovered = s.pointer.hovered := by
  cases a with
  | draw stroke => rfl
  | append e => rfl
  | reveal h visible => rfl
  | place h offset width => rfl
  | bind h => exact bind_hovered s.pointer h

theorem Work.steady {may : Action α → Prop} {e e' : Engine σ ρ α} (step : Work may e e') :
    Steady e e' := by
  cases step with
  | remember memory => constructor <;> rfl
  | act a allowed => exact { Steady.refl e with hovered := apply_hovered e.surfaces a }
  | settle => constructor <;> rfl
  | resolve => constructor <;> rfl
  | axes => constructor <;> rfl
  | paint => exact accepted_steady e _
  | repaint => exact accepted_steady e _

theorem Works.steady {may : Action α → Prop} {e e' : Engine σ ρ α} (work : Works may e e') :
    Steady e e' := by
  induction work with
  | refl => exact .refl e
  | tail _ step ih => exact ih.trans step.steady

theorem Works.keep {may : Action α → Prop} {P : Engine σ ρ α → Prop}
    (kept : ∀ e e', Work may e e' → P e → P e') {e e' : Engine σ ρ α} (work : Works may e e')
    (before : P e) : P e' := by
  induction work with
  | refl => exact before
  | tail _ step ih => exact kept _ _ step ih

/-! ### Calls are turns and work -/

theorem works_run {may : Action α → Prop} (e : Engine σ ρ α) (actions : List (Action α))
    (allowed : ∀ a ∈ actions, may a) :
    Works may e { e with surfaces := e.surfaces.run actions } := by
  induction actions generalizing e with
  | nil => exact .refl
  | cons a rest ih =>
      have first : Work may e { e with surfaces := e.surfaces.apply a } :=
        .act e a (allowed a List.mem_cons_self)
      have later := ih { e with surfaces := e.surfaces.apply a }
        (fun b member => allowed b (List.mem_cons_of_mem a member))
      exact .head first later

/-- The hooks of one phase, also if one of them fails. -/
theorem runHooks_works {may : Action α → Prop} (hook : Hook)
    (body : Plugin σ α → HookBody σ α) (settle : Surfaces α → Surfaces α)
    (settles : ∀ e : Engine σ ρ α, Works may e { e with surfaces := settle e.surfaces })
    (plugins : List (Plugin σ α)) (keeps : ∀ p ∈ plugins, (body p).Keeps may)
    (e : Engine σ ρ α) : Works may e (runHooks hook body settle plugins e).engine := by
  induction plugins generalizing e with
  | nil => exact .refl
  | cons p rest ih =>
      have here := keeps p List.mem_cons_self e.memory e.scene e.surfaces
      have later := ih fun q member => keeps q (List.mem_cons_of_mem p member)
      simp only [runHooks]
      generalize body p e.memory e.scene e.surfaces = run at here ⊢
      -- the surfaces are settled after a hook that fails too
      have one : Works may e { e with
          memory := run.memory, surfaces := settle (e.surfaces.run run.actions) } :=
        (Relation.ReflTransGen.head (.remember e run.memory)
          (works_run _ run.actions here)).trans (settles _)
      cases run.fault with
      | none => exact one.trans (later _)
      | some fault => exact one

theorem andThen_works {may : Action α → Prop} {e : Engine σ ρ α} {o : Outcome σ ρ α}
    {next : Engine σ ρ α → Outcome σ ρ α} (first : Works may e o.engine)
    (rest : Works may o.engine (next o.engine).engine) : Works may e (o.andThen next).engine := by
  unfold Outcome.andThen
  cases o.fault with
  | none => exact first.trans rest
  | some fault => exact first

variable {may : Action α → Prop} (e : Engine σ ρ α) (keeps : e.Keeps may)
include keeps

theorem runInit_works : Works may e (runInit e).engine :=
  runHooks_works _ _ _ (fun _ => .refl) _ (fun p member => (keeps p member).init) e

theorem runSetCursor_works : Works may e (runSetCursor e).engine :=
  runHooks_works _ _ _ (fun _ => .refl) _ (fun p member => (keeps p member).setCursor) e

theorem runDraw_works : Works may e (runDraw e).engine :=
  runHooks_works _ _ _ (fun e => .single (.settle e)) _ (fun p member => (keeps p member).draw) e

theorem render_works : Works may e (render e).engine := by
  have prepared : Works may e e.resolveScales.drawAxes :=
    .head (.resolve e) (.single (.axes e.resolveScales))
  exact andThen_works (prepared.trans (runDraw_works _ (prepared.steady.keeps keeps)))
    (.single (.paint _))

omit keeps in
theorem repaintIfDirty_works : Works may e e.repaintIfDirty.engine := by
  unfold repaintIfDirty
  split
  · exact .single (.repaint e)
  · exact .refl

theorem announce_works : Works may e e.announce.engine :=
  andThen_works (runSetCursor_works e keeps) (repaintIfDirty_works _)

theorem renew_works : Works may e e.renew.engine := by
  have told := runSetCursor_works e keeps
  exact andThen_works told (render_works _ (told.steady.keeps keeps))

theorem follow_works (c : Call α) : Works may e (e.follow c).engine := by
  cases c with
  | enter => exact repaintIfDirty_works e
  | move x y => exact announce_works e keeps
  | leave => exact announce_works e keeps
  | setData data => exact renew_works e keeps
  | setWindow first last => exact renew_works e keeps
  | resetWindow =>
      simp only [follow]
      split
      · exact .refl
      · exact renew_works e keeps
  | render => exact render_works e keeps

end LadderChart.Engine
