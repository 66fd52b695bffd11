import LadderChart.Proofs.Data.Slice
import LadderChart.Proofs.Engine.Scales
import LadderChart.Proofs.Engine.Sound
import LadderChart.Proofs.Plot.Ticks
import LadderChart.Proofs.Standard.Doubles

/-!
Ranges that are taken from the data enclose what is shown of them. Then a span that does not
overflow is all it takes: every column, every rung and every tick of the window has a finite place.
-/

namespace LadderChart

/-- A rule, where there is one, asks for the range that the axis would show anyway. -/
def Options.Ranged {α : Type} [Scalar α] (o : Options α) : Prop :=
  ∀ (axis : Axis) (scale : ScaleOptions α) (rule : RangeRule α), o.scales.get? axis.key = some scale →
    scale.rule = some rule → ∀ data w, rule data w = Scale.builtinRange axis scale.distribution data w

namespace Scene

/-- Ranges are finite and in order, and what the window shows lies in them. -/
structure Enclosed {α : Type} [Scalar α] (s : Scene α) : Prop where
  xRange : Extent.Proper s.xScale.range
  yRange : Extent.Proper s.yScale.range
  columns : ∀ w index v low high, s.window = some w → w.contains index = true →
    s.xScale.range = some (low, high) →
    Scale.domainValue? s.xScale.distribution index s.data.series = some v → low ≤ v ∧ v ≤ high
  rungs : ∀ w index rung low high, s.window = some w → w.contains index = true →
    s.yScale.range = some (low, high) → rung ∈ s.data.rungsAt index → low ≤ rung ∧ rung ≤ high

structure Spanned (s : Scene Float) : Prop where
  x : ∀ low high, s.xScale.range = some (low, high) → (high - low).isFinite = true
  y : ∀ low high, s.yScale.range = some (low, high) → (high - low).isFinite = true

end Scene

section Ranges
variable {α : Type} [Scalar α]

/-- The rule of the ladder axis is the range it would show anyway. -/
theorem Options.ladder_ranged (width height : UInt32) (title : String) :
    (Options.ladder width height title : Options α).Ranged := by
  intro axis scale rule found ruled data w
  cases axis with
  | x =>
      cases found
      cases ruled
  | y =>
      cases found
      cases ruled
      rfl

theorem Extent.proper_some {range : Option (α × α)} {bounds : α × α}
    (counts : proper range = some bounds) : range = some bounds := by
  unfold proper at counts
  split at counts
  · split at counts
    · exact counts
    · cases counts
  · cases counts

omit [Scalar α] in
theorem Dataset.mem_rungsAt {data : Dataset α} {index : Nat} {rung : α}
    (member : rung ∈ data.rungsAt index) :
    ∃ rungs, data.ladders[index]? = some (some rungs) ∧ rung ∈ rungs := by
  unfold rungsAt at member
  cases found : data.ladders[index]? with
  | none => simp [found] at member
  | some column =>
      cases column with
      | none => simp [found] at member
      | some rungs =>
          simp only [found, Option.join_some, Option.getD_some] at member
          exact ⟨rungs, rfl, member⟩

omit [Scalar α] in
/-- Gaps are left out of the rungs of a window, and a column with a rung is none. -/
theorem Dataset.mem_shown_rungs {data : Dataset α} {w : Window} {index : Nat} {rung : α}
    (inside : w.contains index = true) (member : rung ∈ data.rungsAt index) :
    rung ∈ ((w.slice data.ladders).filterMap id).flatten := by
  obtain ⟨rungs, found, there⟩ := mem_rungsAt member
  have column := w.mem_slice data.ladders index (some rungs) inside found
  exact List.mem_flatten.mpr ⟨rungs, List.mem_filterMap.mpr ⟨some rungs, column, rfl⟩, there⟩

namespace Engine

theorem resolveAxis_builtin {o : Options α} (ranged : o.Ranged) {data : Dataset α}
    {window : Option Window} {axis : Axis} {bounds : α × α}
    (range : (resolveAxis o data window axis).range = some bounds) :
    ∃ w, window = some w ∧ Scale.builtinRange axis (resolveAxis o data window axis).distribution
      data w = some bounds := by
  unfold resolveAxis at range ⊢
  cases found : o.scales.get? axis.key with
  | none => simp [found, Scale.degenerate] at range
  | some scale =>
      cases window with
      | none => simp [found, Scale.degenerate] at range
      | some w =>
          refine ⟨w, rfl, ?_⟩
          cases ruled : scale.rule with
          | none => simpa only [found, ruled] using range
          | some rule =>
              simp only [found, ruled] at range ⊢
              rw [← ranged axis scale rule found ruled]
              exact Extent.proper_some range

variable {σ ρ : Type} {e : Engine σ ρ α} [Scalar.Ordered α]

/-- Ranges taken from the data are those of the window, column by column and rung by rung. -/
theorem Sound.enclosed (sound : e.Sound) (words : e.scene.data.length ≤ Scalar.largestIndex)
    (settled : e.scene.ScaledOn e.options e.scene.basis) (ranged : e.options.Ranged) :
    e.scene.Enclosed := by
  have valid := (Dataset.check_eq_ok e.scene.data).mp sound.data
  refine ⟨sound.xRange, sound.yRange, ?_, ?_⟩
  · intro w index v low high shown inside range value
    rw [settled.x] at range value
    obtain ⟨w', shown', builtin⟩ := resolveAxis_builtin ranged range
    have same : w' = w := Option.some.inj (shown'.symm.trans shown)
    subst same
    obtain ⟨first, last⟩ := (w'.contains_iff index).mp inside
    have fits := sound.window_inside w' shown
    generalize (resolveAxis e.options e.scene.basis.data e.scene.basis.window .x).distribution = d
      at value builtin
    cases d with
    | ordinal =>
        -- columns are spaced by their indices, in the order of the window
        cases builtin
        cases value
        exact ⟨Scalar.Ordered.ofNat_mono first (by omega),
          Scalar.Ordered.ofNat_mono last (by omega)⟩
    | linear =>
        have member := w'.mem_slice e.scene.data.series index v inside value
        have numbers : ∀ x ∈ w'.slice e.scene.data.series, Scalar.isNaN x = false := fun x there =>
          Scalar.Ordered.number_of_finite (valid.series x (w'.mem_of_slice _ x there))
        have spans := Extent.of_spans _ numbers
        have extent : Extent.of (w'.slice e.scene.data.series) = some (low, high) :=
          (if_pos fits).symm.trans builtin
        rw [extent] at spans
        exact spans.2.2 v member
  · intro w index rung low high shown inside range member
    rw [settled.y] at range
    obtain ⟨w', shown', builtin⟩ := resolveAxis_builtin ranged range
    have same : w' = w := Option.some.inj (shown'.symm.trans shown)
    subst same
    have spans := Extent.of_spans _ fun x listed =>
      Scalar.Ordered.number_of_finite (valid.shown_rungs w' x listed)
    have extent : Extent.of ((w'.slice e.scene.data.ladders).filterMap id).flatten =
        some (low, high) := builtin
    rw [extent] at spans
    exact spans.2.2 rung (Dataset.mem_shown_rungs inside member)

end Engine
end Ranges

/-! ### Places -/

theorem Scale.Spanned.near {low high x : Float} (spanned : Spanned low high)
    (finite : x.isFinite = true) (above : low ≤ x) (below : x ≤ high) :
    (x - low).isFinite = true := by
  have distance := sub_rounded finite spanned.finiteLow
  have span := sub_rounded spanned.finiteHigh spanned.finiteLow
  obtain ⟨nonneg, le⟩ :=
    distance_le_span spanned.finiteLow spanned.finiteHigh finite above below
  have inside := (le_abs_self _).trans_lt (span.finite_iff.mp spanned.short)
  rw [distance.finite_iff, abs_of_nonneg nonneg]
  exact le.trans_lt inside

theorem Scale.Spanned.fraction {low high x : Float} (spanned : Spanned low high)
    (finite : x.isFinite = true) (above : low ≤ x) (below : x ≤ high) :
    Within 1 (Scale.fraction low high x) :=
  fraction_within spanned.finiteLow spanned.finiteHigh finite above below
    (spanned.near finite above below)

theorem Scale.pixel_cases {α : Type} [Scalar α] {s : Scale α} {axis : Axis} {box : Box α} {x p : α}
    (placed : s.pixel? axis box x = some p) : ∃ low high, s.range = some (low, high) ∧
      Scalar.isFinite x = true ∧ p = place axis box (Scale.fraction low high x) := by
  unfold pixel? at placed
  cases range : s.range with
  | none => simp [range] at placed
  | some bounds =>
      obtain ⟨low, high⟩ := bounds
      simp only [range] at placed
      split at placed
      · rename_i finite
        exact ⟨low, high, rfl, finite, (Option.some.inj placed).symm⟩
      · cases placed

namespace Scene
variable {s : Scene Float} (charted : s.Charted) (enclosed : s.Enclosed) (spanned : s.Spanned)
include enclosed spanned

theorem xSpanned {low high : Float} (range : s.xScale.range = some (low, high)) :
    Scale.Spanned low high := by
  have proper := enclosed.xRange
  rw [range] at proper
  exact ⟨proper.1, proper.2.1, proper.2.2, spanned.x low high range⟩

theorem ySpanned {low high : Float} (range : s.yScale.range = some (low, high)) :
    Scale.Spanned low high := by
  have proper := enclosed.yRange
  rw [range] at proper
  exact ⟨proper.1, proper.2.1, proper.2.2, spanned.y low high range⟩

include charted

theorem columnPixel_within {w : Window} {index : Nat} {p : Float} (shown : s.window = some w)
    (inside : w.contains index = true) (drawn : s.columnPixel? index = some p) :
    Within (2 ^ 42) p := by
  obtain ⟨v, value, placed⟩ := Option.bind_eq_some_iff.mp drawn
  obtain ⟨low, high, range, finite, rfl⟩ := Scale.pixel_cases placed
  obtain ⟨above, below⟩ := enclosed.columns w index v low high shown inside range value
  have share := (xSpanned enclosed spanned range).fraction finite above below
  exact Scale.place_within charted .x (share.mono (by norm_num))

theorem rungPixel_within {w : Window} {index : Nat} {rung p : Float} (shown : s.window = some w)
    (inside : w.contains index = true) (member : rung ∈ s.data.rungsAt index)
    (drawn : s.rungPixel? rung = some p) : Within (2 ^ 42) p := by
  obtain ⟨low, high, range, finite, rfl⟩ := Scale.pixel_cases drawn
  obtain ⟨above, below⟩ := enclosed.rungs w index rung low high shown inside range member
  have share := (ySpanned enclosed spanned range).fraction finite above below
  exact Scale.place_within charted .y (share.mono (by norm_num))

theorem tickPixel_within (l : Float × String) (member : l ∈ Axes.rungLabels s) :
    Within (2 ^ 42) l.1 := by
  unfold Axes.rungLabels at member
  split at member
  · cases member
  · rename_i low high range
    obtain ⟨value, tick, labelled⟩ := List.mem_filterMap.mp member
    obtain ⟨y, drawn, rfl⟩ := Option.map_eq_some_iff.mp labelled
    obtain ⟨low', high', range', finite, rfl⟩ := Scale.pixel_cases drawn
    have same : (low', high') = (low, high) := Option.some.inj (range'.symm.trans range)
    cases same
    have share := Axes.tick_within (ySpanned enclosed spanned range)
      (Axes.tickTarget_bounds _ _) tick finite
    exact Scale.place_within charted .y share

theorem placeable (o : Options Float) : s.Placeable o := by
  constructor
  · intro l member
    unfold Axes.columnLabels at member
    split at member
    · cases member
    · rename_i w shown
      obtain ⟨index, every, labelled⟩ := List.mem_filterMap.mp member
      have inside := w.everyNth_contains _ index every
      unfold Axes.columnLabel? at labelled
      split at labelled
      · rename_i x value drawn _
        cases labelled
        exact (columnPixel_within charted enclosed spanned shown inside drawn).finite
      · cases labelled
  · intro l member
    exact (tickPixel_within charted enclosed spanned l member).finite
  · intro c member
    obtain ⟨pitch, centre, _, drawn, left, _, _, _, ⟨w, shown, inside⟩, rung, sited⟩ :=
      LadderStyle.mem_cells .standard s c member
    have middle := columnPixel_within charted enclosed spanned shown inside drawn
    have height := rungPixel_within charted enclosed spanned shown inside rung sited
    refine ⟨?_, height.finite⟩
    rw [left]
    exact (middle.sub ((LadderStyle.bodyWidth_within pitch).half (by norm_num)) (by norm_num)).finite

end Scene
end LadderChart
