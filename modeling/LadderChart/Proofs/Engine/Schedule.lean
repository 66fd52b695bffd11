import LadderChart.Proofs.Engine.Refusal

/-!
The schedule of hooks. Every call and every opening has a list of hooks that is known before the
first of them runs: phases in a fixed order, and in each phase all plugins in the order of their
registration. The hooks that run are those of the list up to the first that fails, and its fault
ends the call before anything is handed over.
-/

namespace LadderChart

abbrev Station (σ α : Type) := Plugin σ α × Hook

/-- What passes from one hook to the next: the shared memory and the options. -/
abbrev Carried (σ α : Type) := σ × Options α

inductive Entry (σ α : Type) where
  | opts (p : Plugin σ α) (memory : σ) (o : Options α)
  | act (p : Plugin σ α) (hook : Hook) (memory : σ) (scene : Scene α) (surfaces : Surfaces α)

/-- The hooks that act. The options hook is none of them. -/
def Plugin.body {σ α : Type} (p : Plugin σ α) : Hook → HookBody σ α
  | .opts => fun memory _ _ => .quiet memory
  | .init => p.init
  | .setCursor => p.setCursor
  | .draw => p.draw

namespace Entry
variable {σ α : Type}

def plugin : Entry σ α → Plugin σ α
  | .opts p _ _ => p
  | .act p _ _ _ _ => p

def hook : Entry σ α → Hook
  | .opts _ _ _ => .opts
  | .act _ hook _ _ _ => hook

def station (x : Entry σ α) : Station σ α := (x.plugin, x.hook)

def visit : Entry σ α → Visit α
  | .opts p _ o => .opts p.id o
  | .act p hook _ scene surfaces => .hook p.id hook scene surfaces

def Given (k : Carried σ α) : Entry σ α → Prop
  | .opts _ memory o => memory = k.1 ∧ o = k.2
  | .act _ _ memory _ _ => memory = k.1

def error : Entry σ α → Option Fault
  | .opts p memory o =>
      match (p.opts memory o).2 with
      | .error source => some source
      | .ok _ => none
  | .act p hook memory scene surfaces => (p.body hook memory scene surfaces).fault

def leaves (k : Carried σ α) : Entry σ α → Carried σ α
  | .opts p memory o =>
      match p.opts memory o with
      | (memory, .error _) => (memory, o)
      | (memory, .ok o) => (memory, o)
  | .act p hook memory scene surfaces => ((p.body hook memory scene surfaces).memory, k.2)

end Entry

/-- The hooks of a schedule run in order, each on what the one before left, up to the first that
fails; it is named in the fault, beside its own error. -/
inductive Trace {σ α : Type} :
    List (Station σ α) → Carried σ α → List (Entry σ α) → Carried σ α → Option Fault → Prop where
  | done (k : Carried σ α) : Trace [] k [] k none
  | next {plan : List (Station σ α)} {k k' : Carried σ α} {x : Entry σ α} {ran : List (Entry σ α)}
      {fault : Option Fault} (given : x.Given k) (passed : x.error = none)
      (later : Trace plan (x.leaves k) ran k' fault) :
      Trace (x.station :: plan) k (x :: ran) k' fault
  | fails {plan : List (Station σ α)} {k : Carried σ α} {x : Entry σ α} {source : Fault}
      (given : x.Given k) (failed : x.error = some source) :
      Trace (x.station :: plan) k [x] (x.leaves k) (some (.plugin x.plugin.id x.hook source))

/-- The hooks entered are those of the schedule up to the first that fails. If one does, the whole
ends at its fault and hands nothing over. -/
def Heeds {σ α : Type} (plan : List (Station σ α)) (k : Carried σ α) (visits : List (Visit α))
    (frames : List (Handover α)) (fault : Option Fault) : Prop :=
  ∃ ran k' failure, Trace plan k ran k' failure ∧ visits = ran.map Entry.visit ∧
    ∀ f, failure = some f → fault = some f ∧ frames = []

def phase {σ α : Type} (hook : Hook) (plugins : List (Plugin σ α)) : List (Station σ α) :=
  plugins.map fun p => (p, hook)

namespace Trace
variable {σ α : Type} {plan plan' : List (Station σ α)} {k k' k'' : Carried σ α}
  {ran ran' : List (Entry σ α)} {fault fault' : Option Fault}

theorem append (first : Trace plan k ran k' fault) (passed : fault = none)
    (second : Trace plan' k' ran' k'' fault') :
    Trace (plan ++ plan') k (ran ++ ran') k'' fault' := by
  induction first with
  | done k => exact second
  | next given ok _ ih => exact .next given ok (ih passed second)
  | fails => cases passed

theorem stopped (first : Trace plan k ran k' fault) (failed : fault ≠ none) :
    Trace (plan ++ plan') k ran k' fault := by
  induction first with
  | done k => exact absurd rfl failed
  | next given ok _ ih => exact .next given ok (ih failed)
  | fails given wrong => exact .fails given wrong

end Trace

theorem Heeds.nothing {σ α : Type} (k : Carried σ α) (frames : List (Handover α))
    (fault : Option Fault) : Heeds [] k [] frames fault := by
  refine ⟨[], k, none, .done k, rfl, ?_⟩
  intro f failed
  cases failed

theorem Heeds.after {σ α : Type} {plan plan' : List (Station σ α)} {k k' : Carried σ α}
    {ran : List (Entry σ α)} {visits : List (Visit α)} {frames : List (Handover α)}
    {fault : Option Fault} (second : Heeds plan' k' visits frames fault)
    (first : Trace plan k ran k' none) :
    Heeds (plan ++ plan') k (ran.map Entry.visit ++ visits) frames fault := by
  obtain ⟨ran', k'', failure, later, entered, ends⟩ := second
  refine ⟨ran ++ ran', k'', failure, first.append rfl later, ?_, ends⟩
  rw [entered, List.map_append]

namespace Plugin
variable {σ α : Type}

theorem checkIds_eq_ok (seen : List String) (plugins : List (Plugin σ α)) :
    checkIds seen plugins = .ok () ↔
      (∀ p ∈ plugins, p.id ≠ "" ∧ p.id ∉ seen) ∧ (plugins.map (·.id)).Nodup := by
  induction plugins generalizing seen with
  | nil => simp [checkIds]
  | cons p rest ih =>
      simp only [checkIds, both_eq_ok, refuseIf_eq_ok, ih, List.map_cons, List.nodup_cons]
      rw [List.forall_mem_cons]
      simp only [List.mem_cons, List.mem_map, List.contains_eq_mem, decide_eq_false_iff_not,
        String.isEmpty_eq_false_iff]
      -- an id that comes again is found when it comes the second time
      constructor
      · rintro ⟨named, fresh, others, distinct⟩
        refine ⟨⟨⟨named, fresh⟩, ?_⟩, ?_, distinct⟩
        · intro q member
          exact ⟨(others q member).1, fun old => (others q member).2 (.inr old)⟩
        · rintro ⟨q, member, same⟩
          exact (others q member).2 (.inl same)
      · rintro ⟨⟨⟨named, fresh⟩, others⟩, alone, distinct⟩
        refine ⟨named, fresh, ?_, distinct⟩
        intro q member
        refine ⟨(others q member).1, ?_⟩
        rintro (same | old)
        · exact alone ⟨q, member, same⟩
        · exact (others q member).2 old

end Plugin

def Opening.fault {σ ρ α : Type} : Opening σ ρ α → Option Fault
  | .refused _ _ fault => some fault
  | .opened _ => none

namespace Engine
variable {σ ρ α : Type}

/-- The options hooks, each on the options that the one before gave. -/
theorem runOpts_trace (memory : σ) (o : Options α) (plugins : List (Plugin σ α)) :
    ∃ ran k', optsVisits memory o plugins = ran.map Entry.visit ∧
      match Plugin.runOpts memory o plugins with
      | (memory', .ok o') => Trace (phase .opts plugins) (memory, o) ran (memory', o') none
      | (_, .error f) => Trace (phase .opts plugins) (memory, o) ran k' (some f) := by
  induction plugins generalizing memory o with
  | nil => exact ⟨[], (memory, o), rfl, .done _⟩
  | cons p rest ih =>
      simp only [optsVisits, Plugin.runOpts]
      cases answer : p.opts memory o with
      | mk memory' result =>
          cases result with
          | error source =>
              refine ⟨[.opts p memory o], Entry.leaves (memory, o) (.opts p memory o), rfl, ?_⟩
              exact .fails (x := .opts p memory o) ⟨rfl, rfl⟩ (by simp [Entry.error, answer])
          | ok o' =>
              obtain ⟨ran, k', visits, trace⟩ := ih memory' o'
              have left : Entry.leaves (memory, o) (.opts p memory o) = (memory', o') := by
                simp [Entry.leaves, answer]
              have passed : Entry.error (.opts p memory o) = none := by
                simp [Entry.error, answer]
              refine ⟨.opts p memory o :: ran, k', by simp [visits, Entry.visit], ?_⟩
              simp only
              generalize Plugin.runOpts memory' o' rest = all at trace ⊢
              obtain ⟨memory'', result⟩ := all
              cases result with
              | error f => exact .next (x := .opts p memory o) ⟨rfl, rfl⟩ passed (left ▸ trace)
              | ok o'' => exact .next (x := .opts p memory o) ⟨rfl, rfl⟩ passed (left ▸ trace)

variable [Scalar α]

def phaseEntries (hook : Hook) (settle : Surfaces α → Surfaces α) :
    List (Plugin σ α) → Engine σ ρ α → List (Entry σ α)
  | [], _ => []
  | p :: rest, e =>
      let run := p.body hook e.memory e.scene e.surfaces
      .act p hook e.memory e.scene e.surfaces :: match run.fault with
        | some _ => []
        | none => phaseEntries hook settle rest { e with
            memory := run.memory, surfaces := settle (e.surfaces.run run.actions) }

theorem phaseEntries_visits (hook : Hook) (settle : Surfaces α → Surfaces α)
    (plugins : List (Plugin σ α)) (e : Engine σ ρ α) :
    phaseVisits hook (·.body hook) settle plugins e =
      (phaseEntries hook settle plugins e).map Entry.visit := by
  induction plugins generalizing e with
  | nil => rfl
  | cons p rest ih =>
      simp only [phaseVisits, phaseEntries, List.map_cons, Entry.visit]
      cases (p.body hook e.memory e.scene e.surfaces).fault with
      | some source => rfl
      | none => simp only [ih]

theorem runHooks_trace (hook : Hook) (settle : Surfaces α → Surfaces α)
    (plugins : List (Plugin σ α)) (e : Engine σ ρ α) (o : Options α) :
    Trace (phase hook plugins) (e.memory, o) (phaseEntries hook settle plugins e)
      ((runHooks hook (·.body hook) settle plugins e).engine.memory, o)
      (runHooks hook (·.body hook) settle plugins e).fault := by
  induction plugins generalizing e with
  | nil => exact .done _
  | cons p rest ih =>
      simp only [phaseEntries, runHooks]
      have given : Entry.Given (e.memory, o) (.act p hook e.memory e.scene e.surfaces) := rfl
      cases failed : (p.body hook e.memory e.scene e.surfaces).fault with
      | some source => exact .fails given failed
      | none =>
          have later := ih { e with
            memory := (p.body hook e.memory e.scene e.surfaces).memory
            surfaces := settle
              (e.surfaces.run (p.body hook e.memory e.scene e.surfaces).actions) }
          exact .next given failed later

/-- A phase, and what comes after it if nothing failed. -/
theorem heeds_after (hook : Hook) (settle : Surfaces α → Surfaces α) (e : Engine σ ρ α)
    {outcome : Outcome σ ρ α} (same : outcome = runHooks hook (·.body hook) settle e.plugins e)
    {plan : List (Station σ α)} (next : Engine σ ρ α → Outcome σ ρ α)
    (entered : Engine σ ρ α → List (Visit α)) (handed : Engine σ ρ α → List (Handover α))
    (rest : Heeds plan (outcome.engine.memory, e.options) (entered outcome.engine)
      (handed outcome.engine) (next outcome.engine).fault) :
    Heeds (phase hook e.plugins ++ plan) (e.memory, e.options)
      (phaseVisits hook (·.body hook) settle e.plugins e ++ unlessFailed outcome entered)
      (unlessStopped outcome handed) (outcome.andThen next).fault := by
  have trace := runHooks_trace hook settle e.plugins e e.options
  have visits := phaseEntries_visits hook settle e.plugins e
  rw [← same] at trace
  cases failed : outcome.fault with
  | some f =>
      -- what would come after is not entered, and neither is it a part of the trace
      refine ⟨_, _, _, trace.stopped (by simp [failed]), ?_, ?_⟩
      · simp only [unlessFailed, failed, visits, List.append_nil]
      · intro f' failure
        rw [failed] at failure
        simp only [Outcome.andThen, unlessStopped, failed, and_true]
        exact failure
  | none =>
      simp only [unlessFailed, unlessStopped, Outcome.andThen, failed, visits]
      exact rest.after (failed ▸ trace)

theorem render_heeds (e : Engine σ ρ α) :
    Heeds (phase .draw e.plugins) (e.memory, e.options) e.renderVisits e.renderFrames
      e.render.fault := by
  have all := heeds_after .draw settleCanvas e.resolveScales.drawAxes rfl paint (fun _ => [])
    paintFrames (.nothing _ _ _)
  rw [List.append_nil, unlessFailed_silent, List.append_nil] at all
  exact all

theorem renew_heeds (e : Engine σ ρ α) :
    Heeds (phase .setCursor e.plugins ++ phase .draw e.plugins) (e.memory, e.options)
      e.renewVisits e.renewFrames e.renew.fault := by
  have steady := (runSetCursor_works e fun p _ => p.keeps_any).steady
  have drawn := render_heeds (runSetCursor e).engine
  rw [steady.plugins, steady.options] at drawn
  exact heeds_after .setCursor id e rfl render renderVisits renderFrames drawn

theorem announce_heeds (e : Engine σ ρ α) :
    Heeds (phase .setCursor e.plugins) (e.memory, e.options) e.cursorVisits e.announceFrames
      e.announce.fault := by
  have all := heeds_after .setCursor id e rfl repaintIfDirty (fun _ => []) repaintFrames
    (.nothing _ _ _)
  rw [List.append_nil, unlessFailed_silent, List.append_nil] at all
  exact all

theorem opening_heeds (e : Engine σ ρ α) :
    Heeds (phase .init e.plugins ++ phase .draw e.plugins) (e.memory, e.options)
      e.openingVisits e.openingFrames e.opening.fault := by
  have steady := (runInit_works e.resolveScales fun p _ => p.keeps_any).steady
  have drawn := render_heeds (runInit e.resolveScales).engine
  rw [steady.plugins, steady.options] at drawn
  exact heeds_after .init id e.resolveScales rfl render renderVisits renderFrames drawn

/-! ### Calls -/

def schedule (e : Engine σ ρ α) : Call α → List (Station σ α)
  | .enter => []
  | .move _ _ => phase .setCursor e.plugins
  | .leave => phase .setCursor e.plugins
  | .setData _ => phase .setCursor e.plugins ++ phase .draw e.plugins
  | .setWindow _ _ => phase .setCursor e.plugins ++ phase .draw e.plugins
  | .resetWindow =>
      if e.scene.data.length = 0 then []
      else phase .setCursor e.plugins ++ phase .draw e.plugins
  | .render => phase .draw e.plugins

theorem follow_heeds (e : Engine σ ρ α) (c : Call α) :
    Heeds (e.schedule c) (e.memory, e.options) (e.followVisits c) (e.followFrames c)
      (e.follow c).fault := by
  cases c with
  | enter => exact .nothing _ _ _
  | move x y => exact announce_heeds e
  | leave => exact announce_heeds e
  | setData data => exact renew_heeds e
  | setWindow first last => exact renew_heeds e
  | resetWindow =>
      by_cases empty : e.scene.data.length = 0
      · simp only [schedule, followVisits, if_pos empty]
        exact .nothing _ _ _
      · simp only [schedule, followVisits, followFrames, follow, if_neg empty]
        exact renew_heeds e
  | render => exact render_heeds e

theorem turn_schedule (e : Engine σ ρ α) (c : Call α) :
    (e.turn c).schedule c = e.schedule c ∧ (e.turn c).memory = e.memory := by
  have plugins := (turn_setting e c).2.1
  have data := turn_data e c
  cases c with
  | move x y =>
      refine ⟨by simp only [schedule, plugins], ?_⟩
      simp only [turn, arrive]
      split <;> rfl
  | setWindow first last =>
      refine ⟨by simp only [schedule, plugins], ?_⟩
      simp only [turn]
      split <;> rfl
  | resetWindow =>
      refine ⟨by simp only [schedule, plugins, data], ?_⟩
      simp only [turn]
      split <;> rfl
  | _ => exact ⟨rfl, rfl⟩

theorem call_heeds (e : Engine σ ρ α) (c : Call α) (accepted : e.refusal c = none) :
    Heeds (e.schedule c) (e.memory, e.options) (e.visits c) (e.frames c) (e.call c).fault := by
  have all := follow_heeds (e.turn c) c
  rw [(turn_schedule e c).1, (turn_schedule e c).2, (turn_setting e c).1] at all
  rw [visits_eq, frames_eq, call_eq, accepted]
  exact all

/-! ### Openings -/

section Opening
variable (backend : Backend ρ α) (screen : ρ) (config : Config σ α) (data : Dataset α)

/-- The hooks of an opening whose plugins have proper ids. The plugins act only if the options that
their options hooks give, the data and the plot area are valid. -/
def openSchedule : List (Station σ α) :=
  phase .opts config.plugins ++
    match Plugin.runOpts config.memory config.options config.plugins with
    | (_, .error _) => []
    | (_, .ok o) =>
        match layOut o data with
        | .error _ => []
        | .ok _ => phase .init config.plugins ++ phase .draw config.plugins

theorem open_unnamed (fault : Fault) (ids : Plugin.checkIds [] config.plugins = .error fault) :
    openWith backend screen config data = .refused config.memory screen fault ∧
      openVisits backend screen config data = [] ∧ openFrames backend screen config data = [] := by
  have again : Plugin.checkIds [] config.watched.plugins = .error fault :=
    (checkIds_watched [] config.plugins).trans ids
  simp only [openVisits, openFrames, openWith, ids, again]
  exact ⟨trivial, rfl, trivial⟩

variable {config data}

theorem laid_out {memory : σ} {o : Options α} {box : Box α}
    (ids : Plugin.checkIds [] config.plugins = .ok ())
    (opts : Plugin.runOpts config.memory config.options config.plugins = (memory, .ok o))
    (laid : layOut o data = .ok box) : ∃ first, LaidOut backend screen config data first ∧
      first.memory = memory ∧ first.options = o := by
  obtain ⟨options, valid, boxed⟩ := layOut_eq_ok o data box laid
  exact ⟨⟨o, config.plugins, memory, backend, screen, firstScene o box data, .blank⟩,
    ⟨ids, opts, options, valid, boxed, rfl, rfl, rfl, rfl, rfl⟩, rfl, rfl⟩

variable {backend screen}

theorem openVisits_laid {first : Engine σ ρ α} (start : LaidOut backend screen config data first) :
    openVisits backend screen config data =
      optsVisits config.memory config.options config.plugins ++ openingVisits first := by
  obtain ⟨handed, same⟩ := opening_mirrors first
  have watched := same (optsVisits config.memory config.options config.plugins) []
  unfold openVisits
  rw [openWith_laid (watchedStart start), start_eq, watched]
  cases failed : first.opening.fault with
  | some fault =>
      simp only [Outcome.watched, failed]
      rfl
  | none =>
      simp only [Outcome.watched, failed]
      rfl

variable (backend screen)

/-- The options hooks fail, or what they give is refused: no plugin acts. -/
theorem open_early {memory : σ} {f : Fault} (ids : Plugin.checkIds [] config.plugins = .ok ())
    (early : Plugin.runOpts config.memory config.options config.plugins = (memory, .error f) ∨
      ∃ o, Plugin.runOpts config.memory config.options config.plugins = (memory, .ok o) ∧
        layOut o data = .error f) :
    openWith backend screen config data = .refused memory screen f ∧
      openVisits backend screen config data =
        optsVisits config.memory config.options config.plugins ∧
      openFrames backend screen config data = [] := by
  have again : Plugin.checkIds [] config.watched.plugins = .ok () :=
    (checkIds_watched [] config.plugins).trans ids
  have noted : Plugin.runOpts config.watched.memory config.watched.options config.watched.plugins =
      _ := runOpts_watched config.memory config.options config.plugins []
  rcases early with opts | ⟨o, opts, laid⟩
  · rw [opts] at noted
    simp [openVisits, openFrames, openWith, ids, again, opts, noted]
  · rw [opts] at noted
    simp [openVisits, openFrames, openWith, ids, again, opts, noted, laid]

/-- An opening gets to laying out an engine, or it hands nothing over and enters nothing but hooks
for the options. -/
theorem opening_cases : (openFrames backend screen config data = [] ∧
      (openVisits backend screen config data = [] ∨
        openVisits backend screen config data =
          optsVisits config.memory config.options config.plugins)) ∨
    ∃ first, LaidOut backend screen config data first := by
  cases ids : Plugin.checkIds [] config.plugins with
  | error fault =>
      obtain ⟨_, visits, frames⟩ := open_unnamed backend screen config data fault ids
      exact .inl ⟨frames, .inl visits⟩
  | ok done =>
      cases opts : Plugin.runOpts config.memory config.options config.plugins with
      | mk memory answer =>
          cases answer with
          | error f =>
              obtain ⟨_, visits, frames⟩ : _ ∧ openVisits backend screen config data = _ ∧ _ :=
                open_early backend screen ids (.inl opts)
              exact .inl ⟨frames, .inr visits⟩
          | ok o =>
              cases laid : layOut o data with
              | error f =>
                  obtain ⟨_, visits, frames⟩ := open_early backend screen ids (.inr ⟨o, opts, laid⟩)
                  exact .inl ⟨frames, .inr visits⟩
              | ok box =>
                  obtain ⟨first, start, _⟩ := laid_out backend screen ids opts laid
                  exact .inr ⟨first, start⟩

theorem open_heeds (ids : Plugin.checkIds [] config.plugins = .ok ()) :
    Heeds (openSchedule config data) (config.memory, config.options)
      (openVisits backend screen config data) (openFrames backend screen config data)
      (openWith backend screen config data).fault := by
  obtain ⟨ran, k', visits, trace⟩ := runOpts_trace config.memory config.options config.plugins
  cases opts : Plugin.runOpts config.memory config.options config.plugins with
  | mk memory answer =>
      -- the schedule is as long as the opening gets before the first draw hook
      rw [opts] at trace
      cases answer with
      | error f =>
          obtain ⟨refused, entered, handed⟩ :=
            @open_early _ _ _ _ backend screen _ data _ _ ids (.inl opts)
          rw [refused, entered, handed, visits]
          simp only [openSchedule, opts, List.append_nil]
          exact ⟨ran, k', some f, trace, rfl, fun _ same => ⟨same, rfl⟩⟩
      | ok o =>
          cases laid : layOut o data with
          | error f =>
              obtain ⟨refused, entered, handed⟩ :=
                open_early backend screen ids (.inr ⟨o, opts, laid⟩)
              rw [refused, entered, handed, visits]
              simp only [openSchedule, opts, laid, List.append_nil]
              exact ⟨ran, (memory, o), none, trace, rfl, fun _ same => by cases same⟩
          | ok box =>
              obtain ⟨first, start, rfl, rfl⟩ :=
                laid_out backend screen ids opts laid
              have later := opening_heeds first
              rw [start.plugins] at later
              have ends : first.start.fault = first.opening.fault := by
                rw [start_eq]
                cases first.opening.fault <;> rfl
              rw [openVisits_laid start, openFrames_laid start, openWith_laid start, visits, ends]
              simp only [openSchedule, opts, laid]
              exact later.after trace

end Opening

/-- Hooks follow their schedule. Opening starts with the ids: if one is empty or there twice, no
hook runs. Else the hooks that run are those of the schedule up to the first that fails, each once
and on what the one before left; its fault, with the plugin and the hook, ends the opening or the
call, and nothing is handed over. A call that is refused runs none. -/
theorem hooks_follow_schedule :
    (∀ (backend : Backend ρ α) (screen : ρ) (config : Config σ α) (data : Dataset α),
      ((∃ p ∈ config.plugins, p.id = "") ∨ ¬ (config.plugins.map (·.id)).Nodup →
        (∃ fault, openWith backend screen config data = .refused config.memory screen fault) ∧
          openVisits backend screen config data = [] ∧
          openFrames backend screen config data = []) ∧
      ((∀ p ∈ config.plugins, p.id ≠ "") ∧ (config.plugins.map (·.id)).Nodup →
        Heeds (openSchedule config data) (config.memory, config.options)
          (openVisits backend screen config data) (openFrames backend screen config data)
          (openWith backend screen config data).fault)) ∧
    ∀ (e : Engine σ ρ α) (c : Call α), match e.refusal c with
      | some fault => e.Untouched c fault
      | none => Heeds (e.schedule c) (e.memory, e.options) (e.visits c) (e.frames c)
          (e.call c).fault := by
  refine ⟨fun backend screen config data => ⟨?_, ?_⟩, ?_⟩
  · intro improper
    cases ids : Plugin.checkIds [] config.plugins with
    | error fault =>
        obtain ⟨refused, nothing⟩ := open_unnamed backend screen config data fault ids
        exact ⟨⟨fault, refused⟩, nothing⟩
    | ok done =>
        obtain ⟨named, distinct⟩ := (Plugin.checkIds_eq_ok [] config.plugins).mp ids
        rcases improper with ⟨p, member, empty⟩ | repeated
        · exact absurd empty (named p member).1
        · exact absurd distinct repeated
  · rintro ⟨named, distinct⟩
    refine open_heeds backend screen ((Plugin.checkIds_eq_ok [] config.plugins).mpr ⟨?_, distinct⟩)
    intro p member
    exact ⟨named p member, List.not_mem_nil⟩
  · intro e c
    cases refused : e.refusal c with
    | some fault => exact refused_untouched e c fault refused
    | none => exact call_heeds e c refused

def quiet (id : String) : Plugin Unit Float := { id := id }

/-- Two plugins of one id run nothing; two of different ids run all their hooks in turn. -/
theorem twins_silent :
    openVisits Recorder.backend .fresh ⟨.standard, [quiet "a", quiet "a"], ()⟩ twoColumns = [] ∧
    Heeds (phase .opts [quiet "a", quiet "b"] ++
        (phase .init [quiet "a", quiet "b"] ++ phase .draw [quiet "a", quiet "b"]))
      ((), .standard)
      (openVisits Recorder.backend .fresh ⟨.standard, [quiet "a", quiet "b"], ()⟩ twoColumns)
      (openFrames Recorder.backend .fresh ⟨.standard, [quiet "a", quiet "b"], ()⟩ twoColumns)
      (openWith Recorder.backend .fresh ⟨.standard, [quiet "a", quiet "b"], ()⟩
        twoColumns).fault := by
  constructor
  · exact ((hooks_follow_schedule.1 _ _ _ _).1 (.inr (by decide))).2.1
  · exact (hooks_follow_schedule.1 _ _ ⟨.standard, [quiet "a", quiet "b"], ()⟩ twoColumns).2
      (by decide)

end Engine
end LadderChart
