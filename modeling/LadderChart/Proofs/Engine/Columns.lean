import LadderChart.Proofs.Engine.Aim
import LadderChart.Proofs.Engine.Resolved
import LadderChart.Proofs.Standard.Ink

/-!
Columns of cells on an axis that is spaced evenly, without rounding. The cells of a column stand one
above the other around its centre. How wide they are follows from the window, and how far the
centres are apart from the range of the axis, which is that of the window in the last full pass. If
both are one window, columns go from left to right with the gap between them; else they do exactly
if the range spans columns and leaves room for the cells.
-/

namespace LadderChart

namespace LadderStyle

theorem bodyWidth_rat (style : LadderStyle Rat) (columnWidth : Rat) :
    style.bodyWidth columnWidth = max (min style.widest (columnWidth - style.gap)) 0 := by
  rw [bodyWidth, Scalar.upper_rat, Scalar.lower_rat, Scalar.zero_rat]

variable (style : LadderStyle Rat) (s : Scene Rat)

/-- The edges between which a visible column has its cells: as far from each other as cells are
wide, with the centre of the column halfway. -/
def Stands (index : Nat) (left right : Rat) : Prop :=
  ∃ w centre, s.window = some w ∧ w.contains index = true ∧ s.columnPixel? index = some centre ∧
    right - left = style.bodyWidth (Scale.pitch w s.box) ∧ (left + right) / 2 = centre

/-- Cells are at most as wide as the style has it, and those of one column share its edges. Columns
are laid out one after the other. -/
structure Stacked : Prop where
  width : ∀ columnWidth,
    0 ≤ style.bodyWidth columnWidth ∧ style.bodyWidth columnWidth ≤ max style.widest 0
  cells : ∀ c ∈ style.cells s, style.Stands s c.index c.rect.x (c.rect.x + c.rect.width)
  shared : ∀ c ∈ style.cells s, ∀ c' ∈ style.cells s, c.index = c'.index →
    c.rect.x = c'.rect.x ∧ c.rect.width = c'.rect.width
  listed : (style.cells s).Pairwise fun c c' => c.index ≤ c'.index

/-- Visible columns go from left to right, and cells of two of them leave the gap. -/
structure Parted : Prop where
  ordered : ∀ i j left right left' right', i < j → style.Stands s i left right →
    style.Stands s j left' right' → left < left'
  apart : ∀ i j left right left' right', i < j → style.Stands s i left right →
    style.Stands s j left' right' → left < right → right + style.gap ≤ left'

variable {style s}

theorem Stands.unique {index : Nat} {left right left' right' : Rat}
    (stands : style.Stands s index left right) (stands' : style.Stands s index left' right') :
    left = left' ∧ right = right' := by
  obtain ⟨w, centre, shown, _, placed, width, middle⟩ := stands
  obtain ⟨w', centre', shown', _, placed', width', middle'⟩ := stands'
  rw [shown, Option.some.injEq] at shown'
  rw [placed, Option.some.injEq] at placed'
  subst shown' placed'
  constructor <;> linarith

theorem cells_stand (c : Cell Rat) (member : c ∈ style.cells s) :
    style.Stands s c.index c.rect.x (c.rect.x + c.rect.width) := by
  obtain ⟨pitch, centre, wide, placed, left, width, _, _, ⟨w, shown, inside⟩, _⟩ :=
    mem_cells style s c member
  have pitched : pitch = Scale.pitch w s.box := by
    simp only [Scene.pitch?, shown, Option.map_some, Option.some.injEq] at wide
    exact wide.symm
  rw [Scalar.two_rat] at left
  refine ⟨w, centre, shown, inside, placed, ?_, ?_⟩
  · rw [width, pitched, add_sub_cancel_left]
  · rw [left, width]
    ring

theorem columnCells_index (width : Rat) (index : Nat) :
    ∀ c ∈ style.columnCells s width index, c.index = index := by
  intro c member
  unfold columnCells at member
  split at member
  · cases member
  · obtain ⟨entry, _, drawn⟩ := List.mem_filterMap.mp member
    obtain ⟨y, _, rfl⟩ := Option.map_eq_some_iff.mp drawn
    rfl

theorem cells_listed (style : LadderStyle Rat) (s : Scene Rat) :
    (style.cells s).Pairwise fun c c' => c.index ≤ c'.index := by
  unfold cells
  split
  · rename_i w pitch _ _
    rw [List.pairwise_flatMap]
    constructor
    · intro index _
      apply List.pairwise_of_forall_mem_list
      intro c there c' there'
      rw [columnCells_index _ _ c there, columnCells_index _ _ c' there']
    · refine (List.pairwise_lt_range' 1).imp ?_
      intro i j before c there c' there'
      rw [columnCells_index _ _ c there, columnCells_index _ _ c' there']
      exact before.le
  · exact .nil

theorem stacked (style : LadderStyle Rat) (s : Scene Rat) : style.Stacked s where
  width := by
    intro columnWidth
    rw [bodyWidth_rat]
    exact ⟨le_max_right _ _, max_le_max_right 0 (min_le_left _ _)⟩
  cells := cells_stand
  shared := by
    intro c there c' there' same
    have stands := cells_stand c there
    rw [same] at stands
    obtain ⟨left, right⟩ := stands.unique (cells_stand c' there')
    exact ⟨left, by linarith⟩
  listed := cells_listed style s

/-! ### Distances -/

section Evenly
variable {v w : Window}

def spaced (v : Window) : Scale Rat := ⟨.ordinal, some (Scalar.ofNat v.first, Scalar.ofNat v.last)⟩

/-- Neighbours are one part of the width apart if the range is divided into its columns. A range of
one column has no parts, and all columns are at one place. -/
theorem centres_apart (scale : s.xScale = spaced v) (i j : Nat) :
    ∃ x x', s.columnPixel? i = some x ∧ s.columnPixel? j = some x' ∧
      x' - x = ((j : Rat) - i) * (s.box.width / v.span) := by
  have range : s.xScale.range = some ((v.first : Rat), (v.last : Rat)) := by
    rw [scale]
    rfl
  have placed (k : Nat) : Scale.domainValue? s.xScale.distribution k s.data.series =
      some (k : Rat) := by
    rw [scale]
    rfl
  have parts : ((v.span : Nat) : Rat) = (v.last : Rat) - v.first := by
    rw [Window.span, Nat.cast_sub v.ordered]
  refine ⟨_, _, Scene.column_drawn range i _ (placed i), Scene.column_drawn range j _ (placed j), ?_⟩
  rcases (Nat.cast_le (α := Rat).mpr v.ordered).lt_or_eq with spans | same
  · have span : (v.last : Rat) - v.first ≠ 0 := (sub_pos.mpr spans).ne'
    rw [Scale.fraction_span spans, Scale.fraction_span spans, parts]
    field_simp
    ring
  · rw [parts, same, sub_self, div_zero, mul_zero]
    simp only [Scale.fraction, sub_self, Scalar.zero_rat, lt_irrefl, if_false]

theorem first_stands (style : LadderStyle Rat) (shown : s.window = some w) (several : 0 < w.span)
    (scale : s.xScale = spaced v) : ∃ left right left' right',
      style.Stands s w.first left right ∧ style.Stands s (w.first + 1) left' right' ∧
      right - left = style.bodyWidth (Scale.pitch w s.box) ∧
      left' - left = s.box.width / v.span := by
  obtain ⟨x, x', placed, placed', distance⟩ := centres_apart scale w.first (w.first + 1)
  have one : ((w.first + 1 : Nat) : Rat) - w.first = 1 := by
    push_cast
    ring
  rw [one, one_mul] at distance
  have last : w.first + 1 ≤ w.last := by
    simp only [Window.span] at several
    omega
  generalize body : style.bodyWidth (Scale.pitch w s.box) = width
  refine ⟨x - width / 2, x + width / 2, x' - width / 2, x' + width / 2,
    ⟨w, x, shown, (w.contains_iff _).mpr ⟨le_rfl, w.ordered⟩, placed, ?_, by ring⟩,
    ⟨w, x', shown, (w.contains_iff _).mpr ⟨Nat.le_succ _, last⟩, placed', ?_, by ring⟩, by ring, ?_⟩
  · rw [body]
    ring
  · rw [body]
    ring
  · linarith

theorem Stands.distance (scale : s.xScale = spaced v) (shown : s.window = some w) {i j : Nat}
    {left right left' right' : Rat} (stands : style.Stands s i left right)
    (stands' : style.Stands s j left' right') :
    right - left = style.bodyWidth (Scale.pitch w s.box) ∧
      left' - left = ((j : Rat) - i) * (s.box.width / v.span) := by
  obtain ⟨w₁, centre, shown₁, _, placed, width, middle⟩ := stands
  obtain ⟨w₂, centre', shown₂, _, placed', width', middle'⟩ := stands'
  rw [shown, Option.some.injEq] at shown₁ shown₂
  subst shown₁ shown₂
  obtain ⟨x, x', drawn, drawn', distance⟩ := centres_apart scale i j
  rw [placed, Option.some.injEq] at drawn
  rw [placed', Option.some.injEq] at drawn'
  subst drawn drawn'
  exact ⟨width, by linarith⟩

/-- A window of several columns on an axis that is ranged for some window: the columns are parted
exactly if that window has several columns too, and its parts have room for the cells and the gap. -/
theorem parted_iff (wide : 0 < s.box.width) (shown : s.window = some w) (several : 0 < w.span)
    (scale : s.xScale = spaced v) : style.Parted s ↔ 0 < v.span ∧
      (style.bodyWidth (Scale.pitch w s.box) = 0 ∨
        style.bodyWidth (Scale.pitch w s.box) + style.gap ≤ s.box.width / v.span) := by
  constructor
  · intro parted
    obtain ⟨left, right, left', right', stands, stands', width, distance⟩ :=
      first_stands style shown several scale
    have next : w.first < w.first + 1 := Nat.lt_succ_self _
    have ordered := parted.ordered _ _ _ _ _ _ next stands stands'
    constructor
    · by_contra none
      rw [Nat.eq_zero_of_not_pos none, Nat.cast_zero, div_zero] at distance
      linarith
    · rcases ((stacked style s).width (Scale.pitch w s.box)).1.eq_or_lt with none | some
      · exact .inl none.symm
      · have apart := parted.apart _ _ _ _ _ _ next stands stands' (by linarith)
        exact .inr (by linarith)
  · rintro ⟨parts, room⟩
    have step : 0 < s.box.width / v.span := div_pos wide (Nat.cast_pos.mpr parts)
    -- columns further on are further away
    have further {i j : Nat} (before : i < j) :
        s.box.width / v.span ≤ ((j : Rat) - i) * (s.box.width / v.span) := by
      have one : (i : Rat) + 1 ≤ j := by exact_mod_cast before
      nlinarith
    constructor
    · intro i j left right left' right' before stands stands'
      obtain ⟨_, distance⟩ := stands.distance scale shown stands'
      linarith [further before]
    · intro i j left right left' right' before stands stands' some
      obtain ⟨width, distance⟩ := stands.distance scale shown stands'
      rcases room with none | room
      · linarith
      · linarith [further before]

theorem parted_single (single : ∀ w, s.window = some w → w.span = 0) : style.Parted s := by
  have none {i j : Nat} {left right left' right' : Rat} (before : i < j)
      (stands : style.Stands s i left right) : ¬ style.Stands s j left' right' := by
    rintro ⟨w, _, shown, inside, _⟩
    obtain ⟨_, _, shown', inside', _⟩ := stands
    rw [shown, Option.some.injEq] at shown'
    subst shown'
    have one := single w shown
    rw [w.contains_iff] at inside inside'
    simp only [Window.span] at one
    omega
  constructor
  · intro i j _ _ _ _ before stands stands'
    exact absurd stands' (none before stands)
  · intro i j _ _ _ _ before stands stands'
    exact absurd stands' (none before stands)

theorem parted_own (wide : 0 < s.box.width) (scale : ∀ w, s.window = some w → s.xScale = spaced w) :
    style.Parted s := by
  by_cases single : ∀ w, s.window = some w → w.span = 0
  · exact parted_single single
  · push Not at single
    obtain ⟨w, shown, several⟩ := single
    have parts : 0 < w.span := Nat.pos_of_ne_zero several
    have pitch : Scale.pitch w s.box = s.box.width / w.span := by
      rw [Scale.pitch, max_eq_left parts, Scalar.ofNat_rat]
    rw [parted_iff wide shown parts (scale w shown), pitch, bodyWidth_rat]
    refine ⟨parts, ?_⟩
    rcases le_total (min style.widest (s.box.width / w.span - style.gap)) 0 with none | some
    · exact .inl (max_eq_right none)
    · rw [max_eq_left some]
      exact .inr (by linarith [min_le_right style.widest (s.box.width / w.span - style.gap)])

end Evenly

theorem xScale_spaced {o : Options Rat} {b : Basis Rat} {spacing : ScaleOptions Rat} {v : Window}
    (declared : o.scales.get? Axis.x.key = some spacing) (ordinal : spacing.distribution = .ordinal)
    (unruled : spacing.rule = none) (scaled : s.ScaledOn o b) (settled : b.window = some v) :
    s.xScale = spaced v := by
  rw [scaled.x]
  simp only [Engine.resolveAxis, declared, settled, unruled, ordinal]
  rfl

end LadderStyle

theorem Visit.Shows.same {α : Type} {hook hook' : Hook} {scene scene' : Scene α} {visit : Visit α}
    (one : visit.Shows hook scene) (other : visit.Shows hook' scene') :
    hook = hook' ∧ scene = scene' := by
  obtain ⟨_, _, rfl⟩ := one
  obtain ⟨_, _, same⟩ := other
  cases same
  exact ⟨rfl, rfl⟩

namespace Engine
variable {σ ρ : Type}

section Reachable
variable {backend : Backend ρ Rat} {screen : ρ} {config : Config σ Rat} {data : Dataset Rat}
  {e : Engine σ ρ Rat} (opened : openWith backend screen config data = .opened e)
include opened

/-- A draw hook is shown a plot of some width, with scales settled for the data and window there. -/
theorem drawn_scaled (calls : List (Call Rat)) (c : Call Rat) (visit : Visit Rat)
    (entered : visit ∈ (e.run calls).visits c) (scene : Scene Rat) (shown : visit.Shows .draw scene) :
    0 < scene.box.width ∧ scene.ScaledOn (e.run calls).options scene.basis := by
  rcases visits_shown _ c visit entered with told | drawn
  · cases (shown.same told).1
  · obtain ⟨_, rfl⟩ := shown.same drawn
    refine ⟨?_, settled_turn_scaled _ c⟩
    rw [show ((e.run calls).turn c).resolveScales.scene.box = _ from
      (turn_sameSetting (e.run calls) c).box]
    exact reach_wide opened calls

theorem drawn_opening (visit : Visit Rat)
    (entered : visit ∈ openVisits backend screen config data) (scene : Scene Rat)
    (shown : visit.Shows .draw scene) :
    0 < scene.box.width ∧ scene.ScaledOn e.options scene.basis := by
  obtain ⟨_, first, start, done, visits⟩ := openWith_watched opened
  rw [visits] at entered
  rcases List.mem_append.mp entered with opts | hooks
  · obtain ⟨_, _, rfl⟩ := optsVisits_shown _ _ _ visit opts
    obtain ⟨_, _, none⟩ := shown
    cases none
  · rcases openingVisits_shown first visit hooks with begun | drawn
    · cases (shown.same begun).1
    · obtain ⟨_, rfl⟩ := shown.same drawn
      rw [(opened_scaled done).1]
      exact ⟨start.wide, resolve_scaled first⟩

variable {spacing : ScaleOptions Rat} (declared : e.options.scales.get? Axis.x.key = some spacing)
  (ordinal : spacing.distribution = .ordinal) (unruled : spacing.rule = none)
include declared ordinal unruled

/-- On an axis that is spaced evenly, cells of one column share its edges in every reachable engine.
Columns are parted whenever a draw hook is entered and whenever no update stalled since the last
full pass. After one that did they are parted exactly if the window of that pass has several columns
and its parts have room for the cells of the present window, and the gap. -/
theorem columns_parted (style : LadderStyle Rat) (calls : List (Call Rat)) :
    (∀ visit ∈ openVisits backend screen config data, ∀ scene, visit.Shows .draw scene →
      style.Stacked scene ∧ style.Parted scene) ∧
    (∀ c, ∀ visit ∈ (e.run calls).visits c, ∀ scene, visit.Shows .draw scene →
      style.Stacked scene ∧ style.Parted scene) ∧
    style.Stacked (e.run calls).scene ∧
    (e.runStalled false calls = false → style.Parted (e.run calls).scene) ∧
    ∀ v w, (e.runSettled e.scene.basis calls).window = some v →
      (e.run calls).scene.window = some w → 0 < w.span →
      let width := style.bodyWidth (Scale.pitch w (e.run calls).scene.box)
      (style.Parted (e.run calls).scene ↔
        0 < v.span ∧ (width = 0 ∨ width + style.gap ≤ (e.run calls).scene.box.width / v.span)) := by
  obtain ⟨first, start, done⟩ := opened_cases opened
  obtain ⟨options, scene⟩ := opened_scaled done
  have fresh : e.scene.ScaledOn e.options e.scene.basis := by
    rw [scene, options]
    exact resolve_scaled first
  obtain ⟨same, scaled⟩ := run_scaled fresh calls
  have wide := reach_wide opened calls
  -- an axis that is ranged for the window at hand has room for all of its columns
  have drawn (scene : Scene Rat)
      (seen : 0 < scene.box.width ∧ scene.ScaledOn e.options scene.basis) :
      style.Stacked scene ∧ style.Parted scene :=
    ⟨LadderStyle.stacked style scene, LadderStyle.parted_own seen.1 fun w shown =>
      LadderStyle.xScale_spaced declared ordinal unruled seen.2 shown⟩
  refine ⟨?_, ?_, LadderStyle.stacked style _, ?_, ?_⟩
  · intro visit entered scene shown
    exact drawn scene (drawn_opening opened visit entered scene shown)
  · intro c visit entered scene shown
    have seen := drawn_scaled opened calls c visit entered scene shown
    rw [same] at seen
    exact drawn scene seen
  · intro fine
    rw [runSettled_basis (fun _ => rfl) calls fine] at scaled
    exact (drawn _ ⟨wide, scaled⟩).2
  · intro v w settled shown several
    exact LadderStyle.parted_iff wide shown several
      (LadderStyle.xScale_spaced declared ordinal unruled scaled settled)

end Reachable

def spacedChart : Opening Band (Recorder Rat) Rat :=
  openWith Recorder.backend .fresh (.standard (Options.standard.setSpacing .ordinal)) crossedColumns

theorem spaced_columns_parted : ∃ e, spacedChart = .opened e ∧
    (LadderStyle.standard.cells (e.run [.setWindow 0 2]).scene).map (fun c =>
      (c.index, c.rect.x, c.rect.width)) = [(0, 31, 50), (1, 715, 50), (2, 1399, 50)] ∧
    LadderStyle.standard.Stacked (e.run [.setWindow 0 2]).scene ∧
    LadderStyle.standard.Parted (e.run [.setWindow 0 2]).scene := by
  have evaluated : spacedChart.passes (fun e => !e.runStalled false [.setWindow 0 2] && decide
      ((LadderStyle.standard.cells (e.run [.setWindow 0 2]).scene).map (fun c =>
        (c.index, c.rect.x, c.rect.width)) = [(0, 31, 50), (1, 715, 50), (2, 1399, 50)])) = true := by
    decide +kernel
  obtain ⟨e, opened, test⟩ := (Opening.passes_iff _ _).mp evaluated
  simp only [Bool.and_eq_true, Bool.not_eq_true', decide_eq_true_eq] at test
  have declared : e.options.scales.get? Axis.x.key = some ⟨true, .ordinal, true, none⟩ := by
    rw [(opened_standing opened).options]
    rfl
  obtain ⟨_, _, stacked, parted, _⟩ :=
    columns_parted opened declared rfl rfl .standard [.setWindow 0 2]
  exact ⟨e, opened, test.2, stacked, parted test.1⟩

def squinting : Script Rat :=
  ⟨"squinting", [], [], [.failLength (.data (.other "two columns")) 2], []⟩

def oneColumn : Dataset Rat := .dense [1.0] [[10.0, 20.0]] [[1.0, 2.0]] ⟨0.0, 2.0⟩

def anotherColumn : Dataset Rat :=
  .dense [1.0, 2.0] [[10.0, 20.0], [10.0, 20.0]] [[1.0, 2.0], [1.0, 2.0]] ⟨0.0, 2.0⟩

def squintingChart : Opening (Desk Rat) (Recorder Rat) Rat :=
  openWith Recorder.backend .fresh
    ⟨Options.standard.setSpacing .ordinal, [squinting.plugin], .fresh 0⟩ oneColumn

/-- The range is that of the one column there was, and both columns have their cells at its place. -/
theorem stalled_columns_overlap : ∃ e spacing, squintingChart = .opened e ∧
    e.options.scales.get? Axis.x.key = some spacing ∧ spacing.auto = true ∧
    spacing.distribution = .ordinal ∧ spacing.rule.isNone = true ∧
    ¬ LadderStyle.standard.Parted (e.run [.setData anotherColumn]).scene := by
  have evaluated : squintingChart.passes (fun e =>
      let reached := (e.run [.setData anotherColumn]).scene
      (e.options.scales.get? Axis.x.key).any (fun s =>
        s.auto && decide (s.distribution = .ordinal) && s.rule.isNone) &&
      decide (0 < reached.box.width ∧ reached.window = some ⟨0, 1, Nat.zero_le 1⟩ ∧
        reached.xScale = LadderStyle.spaced ⟨0, 0, Nat.zero_le 0⟩)) = true := by
    decide +kernel
  obtain ⟨e, opened, test⟩ := (Opening.passes_iff _ _).mp evaluated
  simp only [Bool.and_eq_true, decide_eq_true_eq, Option.any_eq_true] at test
  obtain ⟨⟨spacing, declared, ⟨automatic, ordinal⟩, unruled⟩, wide, shown, scale⟩ := test
  refine ⟨e, spacing, opened, declared, automatic, ordinal, unruled, ?_⟩
  intro parted
  have several := ((LadderStyle.parted_iff wide shown Nat.one_pos scale).mp parted).1
  cases several

end Engine
end LadderChart
