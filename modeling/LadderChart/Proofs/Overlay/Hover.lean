import LadderChart.Proofs.Engine.Reach
import LadderChart.Proofs.Overlay.Elements

/-!
When bound elements are shown. They are shown or hidden when the pointer comes over the plot or
leaves it, by the column that is hovered at that moment, and stay so until it does so again; a
change of the hovered column in between shows and hides nothing.
-/

namespace LadderChart

/-- Actions that show no element. -/
def Action.Shy {α : Type} : Action α → Prop
  | .append e => e.visible = false
  | .reveal _ _ => False
  | _ => True

namespace Surfaces
variable {α : Type}

def visible? (s : Surfaces α) (h : Handle) : Option Bool := (s.under.element? h).map (·.visible)

/-- Some bound elements are shown or hidden together, and no others are shown. -/
structure Lit (bound : List Handle) (lit : Bool) (s : Surfaces α) : Prop where
  even : ∀ h ∈ bound, h ∈ s.pointer.bindings ∧ s.visible? h = some lit
  shown : ∀ h, s.visible? h = some true → h ∈ s.pointer.bindings ∧ lit = true

variable {bound : List Handle} {lit : Bool} {s : Surfaces α}

theorem Lit.same {s' : Surfaces α} (is : Lit bound lit s)
    (visible : ∀ h, s'.visible? h = s.visible? h)
    (bindings : s'.pointer.bindings = s.pointer.bindings) : Lit bound lit s' := by
  constructor
  · intro h member
    rw [bindings, visible]
    exact is.even h member
  · intro h seen
    rw [visible] at seen
    rw [bindings]
    exact is.shown h seen

theorem visible_append (s : Surfaces α) (e : Element α) (h : Nat) :
    { s with under := s.under.append e }.visible? h =
      if h = s.under.nextHandle then some e.visible else s.visible? h := by
  simp only [visible?, UnderLayer.element_append]
  split <;> rfl

theorem visible_next (s : Surfaces α) : s.visible? s.under.nextHandle = none := by
  simp [visible?, UnderLayer.element?, UnderLayer.nextHandle]

theorem visible_setHovered (s : Surfaces α) (hovered overColumn : Bool) (h : Nat) :
    (s.setHovered hovered overColumn).visible? h =
      if h ∈ s.pointer.bindings then (s.visible? h).map fun _ => hovered && overColumn
      else s.visible? h := by
  simp only [visible?, setHovered, LadderChart.setHovered, UnderLayer.element_showAll,
    Option.map_map]
  by_cases bound : h ∈ s.pointer.bindings
  · simp only [bound, if_true]
    rfl
  · simp only [bound, if_false]
    rfl

theorem Lit.hover (is : Lit bound lit s) (hovered overColumn : Bool) :
    Lit bound (hovered && overColumn) (s.setHovered hovered overColumn) := by
  constructor
  · intro h member
    obtain ⟨known, before⟩ := is.even h member
    refine ⟨known, ?_⟩
    rw [visible_setHovered, if_pos known, before]
    rfl
  · intro h seen
    rw [visible_setHovered] at seen
    by_cases known : h ∈ s.pointer.bindings
    · rw [if_pos known] at seen
      obtain ⟨_, _, same⟩ := Option.map_eq_some_iff.mp seen
      exact ⟨known, same⟩
    · rw [if_neg known] at seen
      exact absurd (is.shown h seen).1 known

theorem Lit.apply [Scalar α] (is : Lit bound lit s) (a : Action α) (shy : a.Shy) :
    Lit bound lit (s.apply a) := by
  cases a with
  | draw stroke => exact is.same (fun _ => rfl) rfl
  | reveal h visible => exact shy.elim
  | place h offset width => exact is.same (fun k => UnderLayer.place_visible _ _ _ _ k) rfl
  | append e =>
      have hidden : e.visible = false := shy
      have look : ∀ h, (s.apply (.append e)).visible? h =
          if h = s.under.nextHandle then some false else s.visible? h := by
        intro h
        rw [← hidden]
        exact visible_append s e h
      constructor
      · intro h member
        obtain ⟨known, before⟩ := is.even h member
        refine ⟨known, ?_⟩
        rw [look, if_neg, before]
        intro next
        rw [next, visible_next] at before
        cases before
      · intro h seen
        rw [look] at seen
        split at seen
        · cases seen
        · exact is.shown h seen
  | bind h =>
      have grown : ∀ k, k ∈ s.pointer.bindings → k ∈ (s.apply (.bind h)).pointer.bindings :=
        fun k known => (s.pointer.mem_bind h k).mpr (.inl known)
      constructor
      · intro k member
        obtain ⟨known, before⟩ := is.even k member
        exact ⟨grown k known, before⟩
      · intro k seen
        obtain ⟨known, on⟩ := is.shown k seen
        exact ⟨grown k known, on⟩

end Surfaces

namespace Engine
variable {σ ρ α : Type} [Scalar α]

/-- Whether bound elements are shown after a call: an entering pointer shows them if a column is
hovered, a leaving one hides them. -/
def litAfter (e : Engine σ ρ α) (lit : Bool) : Call α → Bool
  | .enter => e.scene.cursor.index.isSome
  | .leave => false
  | _ => lit

def runLit (e : Engine σ ρ α) (lit : Bool) : List (Call α) → Bool
  | [] => lit
  | c :: rest => runLit (e.call c).engine (e.litAfter lit c) rest

/-- Bound elements are lit under a pointer over the plot only, and no column is hovered without
one. -/
structure Shines (bound : List Handle) (lit : Bool) (e : Engine σ ρ α) : Prop where
  elements : e.surfaces.Lit bound lit
  inside : lit = true → e.surfaces.pointer.hovered = true
  away : e.surfaces.pointer.hovered = false → e.scene.cursor.index = none

variable {bound : List Handle} {lit : Bool}

omit [Scalar α] in
theorem Shines.accepted {e : Engine σ ρ α} (shines : Shines bound lit e)
    (answer : ρ × Option Fault) : Shines bound lit (e.accepted answer).engine := by
  rcases accepted_cases e answer with ⟨_, _, same⟩ | ⟨_, _, same⟩
  · rw [same]
    exact ⟨shines.elements.same (fun _ => rfl) rfl, shines.inside, shines.away⟩
  · rw [same]
    exact ⟨shines.elements, shines.inside, shines.away⟩

theorem shines_work {e e' : Engine σ ρ α} (step : Work Action.Shy e e')
    (shines : Shines bound lit e) : Shines bound lit e' := by
  cases step with
  | remember memory => exact ⟨shines.elements, shines.inside, shines.away⟩
  | act a allowed =>
      constructor
      · exact shines.elements.apply a allowed
      · intro on
        exact (apply_hovered e.surfaces a).trans (shines.inside on)
      · intro out
        exact shines.away ((apply_hovered e.surfaces a).symm.trans out)
  | settle => exact ⟨shines.elements.same (fun _ => rfl) rfl, shines.inside, shines.away⟩
  | resolve => exact ⟨shines.elements, shines.inside, shines.away⟩
  | axes => exact ⟨shines.elements.same (fun _ => rfl) rfl, shines.inside, shines.away⟩
  | paint => exact shines.accepted _
  | repaint => exact shines.accepted _

omit [Scalar α] in
theorem Shines.letGo {e e' : Engine σ ρ α} (shines : Shines bound lit e)
    (surfaces : e'.surfaces = e.surfaces) (none : e'.scene.cursor.index = none) :
    Shines bound lit e' := by
  constructor
  · rw [surfaces]
    exact shines.elements
  · rw [surfaces]
    exact shines.inside
  · exact fun _ => none

theorem Shines.point {e : Engine σ ρ α} (shines : Shines bound lit e)
    (inside : e.surfaces.pointer.hovered = true) (x y : α) : Shines bound lit (e.point x y) := by
  obtain ⟨hovered, bindings⟩ := setCrosshair_frame e.surfaces.pointer
    (e.scene.crosshair e.options.crosshair x y)
  have still : (e.point x y).surfaces.pointer.hovered = true := hovered.trans inside
  constructor
  · exact shines.elements.same (fun _ => rfl) bindings
  · exact fun _ => still
  · intro out
    rw [still] at out
    cases out

theorem shines_turn {e : Engine σ ρ α} (shines : Shines bound lit e) (c : Call α) :
    Shines bound (e.litAfter lit c) (e.turn c) := by
  cases c with
  | enter =>
      constructor
      · have now := shines.elements.hover true e.scene.cursor.index.isSome
        rwa [Bool.true_and] at now
      · exact fun _ => rfl
      · intro out
        cases out
  | move x y =>
      simp only [turn, arrive, litAfter]
      split
      · rename_i inside
        exact shines.point inside x y
      · rename_i out
        -- nothing was lit, and no column was hovered: arriving shows nothing
        have off : e.surfaces.pointer.hovered = false := by simpa using out
        have dark : lit = false := by
          cases same : lit with
          | false => rfl
          | true => exact absurd (shines.inside same) out
        have same : (true && e.scene.cursor.index.isSome) = lit := by
          rw [shines.away off, dark]
          rfl
        have now := shines.elements.hover true e.scene.cursor.index.isSome
        rw [same] at now
        refine Shines.point (e := e.hover true) ⟨now, fun _ => rfl, ?_⟩ rfl x y
        intro on
        cases on
  | leave =>
      obtain ⟨hovered, bindings⟩ := setCrosshair_frame (e.hover false).surfaces.pointer []
      constructor
      · have now := shines.elements.hover false false
        exact now.same (fun _ => rfl) bindings
      · intro on
        cases on
      · exact fun _ => rfl
  | setData data => exact shines.letGo rfl rfl
  | setWindow first last =>
      simp only [turn]
      split
      · exact shines
      · exact shines.letGo rfl rfl
  | resetWindow =>
      simp only [turn]
      split
      · exact shines
      · exact shines.letGo rfl rfl
  | render => exact shines

theorem run_shines {e : Engine σ ρ α} (keeps : e.Keeps Action.Shy) (shines : Shines bound lit e)
    (calls : List (Call α)) : Shines bound (e.runLit lit calls) (e.run calls) := by
  induction calls generalizing e lit with
  | nil => exact shines
  | cons c rest ih =>
      have after : Shines bound (e.litAfter lit c) (e.call c).engine := by
        refine call_reaches e keeps c ?_ (fun _ => shines_turn shines c)
          (fun _ _ step before => shines_work step before)
        intro refused
        cases c with
        | setData data => exact shines
        | setWindow first last => exact shines
        | _ => exact absurd rfl refused
      exact ih (keeps.call c) after

theorem opened_shines {backend : Backend ρ α} {screen : ρ} {config : Config σ α} {data : Dataset α}
    {e : Engine σ ρ α} (opened : openWith backend screen config data = .opened e)
    (shy : ∀ p ∈ config.plugins, p.Keeps Action.Shy) :
    e.Keeps Action.Shy ∧ Shines [] false e := by
  obtain ⟨first, start, work, keeps⟩ := opened_works opened shy
  have blank : Shines [] false first := by
    refine ⟨⟨?_, ?_⟩, ?_, ?_⟩
    · intro h member
      cases member
    · intro h seen
      rw [start.surfaces] at seen
      simp [Surfaces.visible?, Surfaces.blank, UnderLayer.blank, UnderLayer.element?] at seen
    · intro on
      cases on
    · intro _
      rw [start.scene]
      rfl
  exact ⟨keeps, work.keep (fun _ _ step before => shines_work step before) blank⟩

/-- When elements are shown that only the pointer can show. Every element that was bound as the
engine opened is shown exactly if the last transition of the pointer, over the plot or away from it,
found a column hovered; nothing else is ever shown, and only under a pointer over the plot. So bound
elements are shown over hovered columns only, exactly as long as that column is not let go. -/
theorem bound_elements_lit {backend : Backend ρ α} {screen : ρ} {config : Config σ α}
    {data : Dataset α} {e : Engine σ ρ α}
    (opened : openWith backend screen config data = .opened e)
    (shy : ∀ p ∈ config.plugins, p.Keeps Action.Shy) (calls : List (Call α)) :
    (∀ h ∈ e.surfaces.pointer.bindings, (e.surfaces.visible? h).isSome = true →
      (e.run calls).surfaces.visible? h = some (e.runLit false calls) ∧
      (((e.run calls).surfaces.visible? h = some true →
          (e.run calls).surfaces.pointer.hovered = true ∧
            (e.run calls).scene.cursor.index.isSome = true) ↔
        (e.runLit false calls = true → (e.run calls).scene.cursor.index.isSome = true))) ∧
    ∀ h, (e.run calls).surfaces.visible? h = some true →
      h ∈ (e.run calls).surfaces.pointer.bindings ∧ e.runLit false calls = true ∧
        (e.run calls).surfaces.pointer.hovered = true := by
  obtain ⟨keeps, dark⟩ := opened_shines opened shy
  constructor
  · intro h known there
    obtain ⟨visible, found⟩ := Option.isSome_iff_exists.mp there
    have hidden : e.surfaces.visible? h = some false := by
      cases visible with
      | false => exact found
      | true => cases (dark.elements.shown h found).2
    -- one bound element is followed through the run
    have one : Shines [h] false e := by
      refine ⟨⟨?_, dark.elements.shown⟩, dark.inside, dark.away⟩
      intro k member
      rw [List.mem_singleton.mp member]
      exact ⟨known, hidden⟩
    have reached := run_shines keeps one calls
    have now := (reached.elements.even h (List.mem_singleton_self h)).2
    refine ⟨now, ?_⟩
    rw [now]
    constructor
    · intro only on
      exact (only (congrArg some on)).2
    · intro held on
      have lit := Option.some.inj on
      exact ⟨reached.inside lit, held lit⟩
  · intro h seen
    have reached := run_shines keeps dark calls
    obtain ⟨known, lit⟩ := reached.elements.shown h seen
    exact ⟨known, lit, reached.inside lit⟩

def lamp : Plugin Unit Float where
  id := "lamp"
  init := fun memory _ surfaces =>
    ⟨memory, [.append (.fresh .black none), .bind surfaces.under.nextHandle], none⟩

def lampChart : Opening Unit (Recorder Float) Float :=
  openWith Recorder.backend .fresh ⟨.standard, [lamp], ()⟩ twoColumns

theorem lamp_shy : lamp.Keeps Action.Shy := by
  constructor
  · intro memory scene surfaces a taken
    rcases List.mem_cons.mp taken with first | rest
    · rw [first]
      rfl
    · rw [List.mem_singleton.mp rest]
      trivial
  · intro memory scene surfaces a taken
    cases taken
  · intro memory scene surfaces a taken
    cases taken

/-- The pointer enters over the column it moved to. -/
theorem lamp_lit : ∃ e, lampChart = .opened e ∧
    (e.run [.move 1300.0 100.0, .enter]).surfaces.visible? 0 = some true ∧
    (e.run [.move 1300.0 100.0, .enter]).surfaces.pointer.hovered = true := by
  have evaluated : lampChart.passes (fun e => e.surfaces.pointer.bindings.contains 0 &&
      (e.surfaces.visible? 0).isSome && e.runLit false [.move 1300.0 100.0, .enter]) = true := by
    decide +kernel
  obtain ⟨e, opened, test⟩ := (Opening.passes_iff _ _).mp evaluated
  simp only [Bool.and_eq_true, List.contains_iff_mem] at test
  obtain ⟨⟨known, there⟩, lit⟩ := test
  have shy : ∀ p ∈ [lamp], p.Keeps Action.Shy := by
    intro p member
    rw [List.mem_singleton.mp member]
    exact lamp_shy
  obtain ⟨even, shown⟩ := bound_elements_lit opened shy [.move 1300.0 100.0, .enter]
  have now := (even 0 known there).1
  rw [lit] at now
  exact ⟨e, opened, now, (shown 0 now).2.2⟩

/-- Then other data come, the column is let go, and the element is shown still. -/
theorem lamp_left_on : lamp.Keeps Action.Shy ∧
    ∃ e, lampChart = .opened e ∧ 0 ∈ e.surfaces.pointer.bindings ∧
    e.runFaults [.move 1300.0 100.0, .enter, .setData twoColumns] = [none, none, none] ∧
    (e.run [.move 1300.0 100.0, .enter, .setData twoColumns]).surfaces.visible? 0 = some true ∧
    (e.run [.move 1300.0 100.0, .enter, .setData twoColumns]).scene.cursor.index = none := by
  have evaluated : lampChart.passes (fun e =>
      let calls := [.move 1300.0 100.0, .enter, .setData twoColumns]
      decide (0 ∈ e.surfaces.pointer.bindings ∧ e.runFaults calls = [none, none, none] ∧
        (e.run calls).surfaces.visible? 0 = some true ∧
        (e.run calls).scene.cursor.index = none)) = true := by
    decide +kernel
  obtain ⟨e, opened, test⟩ := (Opening.passes_iff _ _).mp evaluated
  exact ⟨lamp_shy, e, opened, of_decide_eq_true test⟩

end Engine
end LadderChart
