import LadderChart.Proofs.Data.Slice
import LadderChart.Proofs.Engine.Setting
import LadderChart.Proofs.Engine.Sound
import LadderChart.Proofs.Plot.Exact

/-!
The hit test against the drawing, over rational numbers. It measures in values, and the drawing is
measured in pixels; both agree on which column of a window is nearest. Of columns with one value the
first is found.
-/

namespace LadderChart

namespace Hit

/-- The point is in the plot, or at most the tolerance away from it on either axis. -/
def Within {α : Type} [Scalar α] (b : Box α) (x y : α) : Prop :=
  b.left - tolerance ≤ x ∧ x ≤ b.right + tolerance ∧
    b.top - tolerance ≤ y ∧ y ≤ b.bottom + tolerance

theorem inside_iff {α : Type} [Scalar α] (b : Box α) (x y : α) :
    inside b x y = true ↔ Within b x y := by
  simp [inside, Within, and_assoc]

theorem nearest_eq_none {τ α : Type} [Scalar α] (distance : τ → α) (candidates : List τ) :
    nearest? distance candidates = none ↔ candidates = [] := by
  cases candidates with
  | nil => simp [nearest?]
  | cons x rest =>
      simp only [nearest?]
      split
      · simp
      · split <;> simp

/-- What is found is nearer than all before it, and no farther than any after it. -/
theorem nearest_split {τ : Type} (distance : τ → Rat) (candidates : List τ) (best : τ)
    (found : nearest? distance candidates = some best) :
    ∃ before after, candidates = before ++ best :: after ∧
      (∀ c ∈ before, distance best < distance c) ∧ ∀ c ∈ after, distance best ≤ distance c := by
  induction candidates generalizing best with
  | nil => cases found
  | cons x rest ih =>
      simp only [nearest?] at found
      cases later : nearest? distance rest with
      | none =>
          have empty := (nearest_eq_none distance rest).mp later
          simp only [later, Option.some.injEq] at found
          exact ⟨[], [], by rw [found, empty]; rfl, by simp, by simp⟩
      | some other =>
          obtain ⟨before, after, same, farther, notNearer⟩ := ih other later
          simp only [later, Scalar.before_rat, decide_eq_true_eq] at found
          -- an earlier candidate is kept unless a later one is nearer
          split at found
          · rename_i nearer
            cases found
            refine ⟨x :: before, after, by rw [same]; rfl, ?_, notNearer⟩
            intro c member
            rcases List.mem_cons.mp member with one | there
            · exact one ▸ nearer
            · exact farther c there
          · rename_i least
            cases found
            refine ⟨[], rest, rfl, by simp, ?_⟩
            intro c member
            have first : distance x ≤ distance other := not_lt.mp least
            rw [same, List.mem_append, List.mem_cons] at member
            rcases member with there | one | there
            · exact first.trans (farther c there).le
            · exact one ▸ first
            · exact first.trans (notNearer c there)

theorem column_valued {α : Type} [Scalar α] (d : Distribution) (series : List α) (w : Window)
    (value : α) (index : Nat) (found : column? d series w value = some index) :
    ∃ v, Scale.domainValue? d index series = some v := by
  cases d with
  | ordinal => exact ⟨_, rfl⟩
  | linear =>
      simp only [column?, Option.map_eq_some_iff] at found
      obtain ⟨best, nearest, same⟩ := found
      have column := (w.mem_columns series best).mp (nearest_mem _ _ best nearest)
      rw [← same]
      exact ⟨best.2, column.2⟩

/-- Of the columns of a window none is nearer by the series to the value than the one that is found,
and those before it are farther. -/
theorem nearest_column (series : List Rat) (w : Window) (value : Rat) (index : Nat)
    (found : column? .linear series w value = some index) : ∃ v, series[index]? = some v ∧
      ∀ j u, w.contains j = true → series[j]? = some u →
        |v - value| ≤ |u - value| ∧ (j < index → |v - value| < |u - value|) := by
  simp only [column?, Option.map_eq_some_iff] at found
  obtain ⟨best, nearest, same⟩ := found
  subst same
  obtain ⟨before, after, columns, farther, notNearer⟩ := nearest_split _ _ best nearest
  have sorted := w.columns_sorted series
  rw [columns, List.pairwise_append, List.pairwise_cons] at sorted
  simp only [Scalar.magnitude_rat] at farther notNearer
  have placed := (w.mem_columns series best).mp
    (columns ▸ List.mem_append_right _ List.mem_cons_self)
  refine ⟨best.2, placed.2, ?_⟩
  intro j u shown value'
  have member := (w.mem_columns series (j, u)).mpr ⟨shown, value'⟩
  rw [columns, List.mem_append, List.mem_cons] at member
  rcases member with there | one | there
  · have far : |best.2 - value| < |u - value| := farther (j, u) there
    exact ⟨far.le, fun _ => far⟩
  · have same : (j, u) = best := one
    subst same
    exact ⟨le_refl _, fun less => absurd less (lt_irrefl j)⟩
  · have later : best.1 < j := sorted.2.1.1 (j, u) there
    exact ⟨notNearer (j, u) there, fun less => absurd less (Nat.lt_asymm later)⟩

/-- By the values that columns are placed at, none of the window is nearer to the value than the one
that is found; placed by the series, those before it are farther. -/
theorem column_least (d : Distribution) (series : List Rat) (w : Window)
    (inside : w.last < series.length) (word : series.length ≤ Scalar.largestIndex) (value : Rat)
    (index : Nat) (found : column? d series w value = some index) :
    ∃ v, Scale.domainValue? d index series = some v ∧
      ∀ j u, w.contains j = true → Scale.domainValue? d j series = some u →
        |v - value| ≤ |u - value| ∧ (d = .linear → j < index → |v - value| < |u - value|) := by
  cases d with
  | ordinal =>
      simp only [column?, Option.some.injEq] at found
      refine ⟨index, rfl, ?_⟩
      intro j u shown placed
      cases placed
      obtain ⟨low, high⟩ := (w.contains_iff j).mp shown
      have least := Rounding.awayFromZero_within value w.first w.last j (by omega) (by omega)
      have clamped : (index : Int) =
          max (w.first : Int) (min (Rounding.awayFromZero value) w.last) := by
        rw [← found, Scalar.nearestIndex_rat, Window.clamp]
        omega
      rw [← clamped] at least
      exact ⟨least, fun linear => by cases linear⟩
  | linear =>
      obtain ⟨v, placed, least⟩ := nearest_column series w value index found
      refine ⟨v, placed, ?_⟩
      intro j u shown placed'
      exact ⟨(least j u shown placed').1, fun _ => (least j u shown placed').2⟩

/-- Two columns that are found at one place of the axis are the same: of the columns with one value
the first is found. -/
theorem column_apart (d : Distribution) (series : List Rat) (w : Window) {value value' v : Rat}
    {index index' : Nat} (found : column? d series w value = some index)
    (found' : column? d series w value' = some index')
    (placed : Scale.domainValue? d index series = some v)
    (placed' : Scale.domainValue? d index' series = some v) : index = index' := by
  cases d with
  | ordinal =>
      have equal : (index : Rat) = index' := Option.some.inj (placed.trans placed'.symm)
      exact_mod_cast equal
  | linear =>
      -- a column with the same value is as near, so it cannot come before the one that is found
      have notBefore : ∀ {value : Rat} {i k : Nat}, column? .linear series w value = some i →
          series[i]? = some v → series[k]? = some v → w.contains k = true → ¬ k < i := by
        intro value i k found placed placed' shown before
        obtain ⟨u, least, farther⟩ := nearest_column series w value i found
        have same : u = v := Option.some.inj (least.symm.trans placed)
        exact lt_irrefl _ (same ▸ (farther k v shown placed').2 before)
      have first := notBefore found placed placed' (column_contains _ _ w _ _ found')
      have second := notBefore found' placed' placed (column_contains _ _ w _ _ found)
      omega

theorem column_isSome (d : Distribution) (series : List Rat) (w : Window)
    (inside : w.last < series.length) (value : Rat) :
    (column? d series w value).isSome = true := by
  cases d with
  | ordinal => rfl
  | linear =>
      obtain ⟨v, first⟩ : ∃ v, series[w.first]? = some v :=
        ⟨_, List.getElem?_eq_getElem (w.ordered.trans_lt inside)⟩
      have shown : w.contains w.first = true := (w.contains_iff _).mpr ⟨le_refl _, w.ordered⟩
      have member := (w.mem_columns series (w.first, v)).mpr ⟨shown, first⟩
      simp only [column?, Option.isSome_map, Option.isSome_iff_ne_none, ne_eq, nearest_eq_none]
      exact List.ne_nil_of_mem member

end Hit

namespace Scene

structure Measured (s : Scene Rat) : Prop where
  wide : 0 < s.box.width
  window : Window.Fits s.data.length s.window
  range : Extent.Proper s.xScale.range
  words : s.data.length ≤ Scalar.largestIndex

variable {s : Scene Rat} {low high : Rat} {w : Window}

theorem column_drawn (range : s.xScale.range = some (low, high)) (j : Nat) (v : Rat)
    (placed : Scale.domainValue? s.xScale.distribution j s.data.series = some v) :
    s.columnPixel? j = some (s.box.left + Scale.fraction low high v * s.box.width) := by
  simp only [columnPixel?, placed, Option.bind_some, Scale.pixel?, range]
  rfl

theorem column_placed (d : Distribution) (series : List Rat) (inside : w.last < series.length)
    (j : Nat) (shown : w.contains j = true) : ∃ v, Scale.domainValue? d j series = some v := by
  cases d with
  | ordinal => exact ⟨j, rfl⟩
  | linear =>
      obtain ⟨_, upTo⟩ := (w.contains_iff j).mp shown
      exact ⟨_, List.getElem?_eq_getElem (by omega)⟩

/-- Inside the plot the hit test reads a value off the axis and asks for the column. -/
theorem indexAt_reads (shown : s.window = some w) (range : s.xScale.range = some (low, high))
    (x y : Rat) (within : Hit.Within s.box (s.canvasX x) (s.canvasY y)) :
    ∃ value, s.xScale.value? .x s.box (s.canvasX x) = some value ∧
      s.indexAt? x y = Hit.column? s.xScale.distribution s.data.series w value := by
  have inside := (Hit.inside_iff s.box (s.canvasX x) (s.canvasY y)).mpr within
  simp only [indexAt?, shown, inside, if_true, Scale.value?, range, Scalar.isFinite_rat]
  split
  · exact ⟨low, rfl, rfl⟩
  · exact ⟨_, rfl, rfl⟩

theorem indexAt_within (x y : Rat) (index : Nat) (found : s.indexAt? x y = some index) :
    Hit.Within s.box (s.canvasX x) (s.canvasY y) ∧
      ∃ low high, s.xScale.range = some (low, high) := by
  unfold indexAt? at found
  split at found
  · cases found
  · split at found
    · rename_i inside
      refine ⟨(Hit.inside_iff _ _ _).mp inside, ?_⟩
      cases range : s.xScale.range with
      | none => simp [Scale.value?, range] at found
      | some bounds => exact ⟨bounds.1, bounds.2, rfl⟩
    · cases found

/-- Two columns that are found and drawn at one pixel are the same. -/
theorem indexAt_apart (wide : 0 < s.box.width) {x y x' y' : Rat} {index index' : Nat}
    (found : s.indexAt? x y = some index) (found' : s.indexAt? x' y' = some index')
    (drawn : s.columnPixel? index = s.columnPixel? index') : index = index' := by
  obtain ⟨within, low, high, range⟩ := indexAt_within x y index found
  obtain ⟨within', _⟩ := indexAt_within x' y' index' found'
  obtain ⟨w, shown, _⟩ := s.indexAt_inside x y index found
  obtain ⟨value, reads, asks⟩ := indexAt_reads shown range x y within
  obtain ⟨value', reads', asks'⟩ := indexAt_reads shown range x' y' within'
  rw [asks] at found
  rw [asks'] at found'
  have scale : s.xScale = ⟨s.xScale.distribution, some (low, high)⟩ := by rw [← range]
  rcases lt_or_ge low high with spans | flat
  · obtain ⟨v, placed⟩ := Hit.column_valued _ _ w value index found
    obtain ⟨u, placed'⟩ := Hit.column_valued _ _ w value' index' found'
    have back := Scale.value_drawn s.xScale.distribution s.box spans wide
    rw [column_drawn range index v placed, column_drawn range index' u placed',
      Option.some.injEq] at drawn
    have same : some v = some u := (back v).symm.trans (drawn ▸ back u)
    rw [← Option.some.inj same] at placed'
    exact Hit.column_apart _ _ w found found' placed placed'
  · -- a range without a span has one value, whatever the pointer
    have none : high - low ≤ 0 := sub_nonpos.mpr flat
    have one : ∀ pixel, s.xScale.value? .x s.box pixel = some low := by
      intro pixel
      rw [scale]
      simp [Scale.value?, Scalar.isFinite_rat, Scalar.zero_rat, none]
    rw [one, Option.some.injEq] at reads reads'
    rw [← reads] at found
    rw [← reads'] at found'
    exact Option.some.inj (found.symm.trans found')

variable (measured : s.Measured)
include measured

theorem Measured.last (shown : s.window = some w) : w.last < s.data.series.length := by
  have fits := measured.window
  rw [shown] at fits
  exact fits.2

theorem Measured.indexAt_isSome (x y : Rat) : (s.indexAt? x y).isSome = true ↔
    s.data.length ≠ 0 ∧ s.xScale.isDegenerate = false ∧
      Hit.Within s.box (s.canvasX x) (s.canvasY y) := by
  constructor
  · intro there
    obtain ⟨index, found⟩ := Option.isSome_iff_exists.mp there
    obtain ⟨within, low, high, range⟩ := indexAt_within x y index found
    obtain ⟨w, shown, _⟩ := s.indexAt_inside x y index found
    have last : w.last < s.data.length := measured.last shown
    exact ⟨by omega, by simp [Scale.isDegenerate, range], within⟩
  · rintro ⟨filled, ranged, within⟩
    have fits := measured.window
    cases shown : s.window with
    | none =>
        rw [shown] at fits
        exact absurd fits filled
    | some w =>
        cases range : s.xScale.range with
        | none => simp [Scale.isDegenerate, range] at ranged
        | some bounds =>
            obtain ⟨value, _, asks⟩ := indexAt_reads shown range x y within
            rw [asks]
            exact Hit.column_isSome _ _ w (measured.last shown) value

theorem Measured.indexAt_least (x y : Rat) (index : Nat) (found : s.indexAt? x y = some index) :
    ∃ w p, s.window = some w ∧ w.contains index = true ∧ s.columnPixel? index = some p ∧
      ∀ j, w.contains j = true →
        ∃ q, s.columnPixel? j = some q ∧ |p - s.canvasX x| ≤ |q - s.canvasX x| := by
  obtain ⟨within, low, high, range⟩ := indexAt_within x y index found
  obtain ⟨w, shown, inside⟩ := s.indexAt_inside x y index found
  obtain ⟨value, reads, asks⟩ := indexAt_reads shown range x y within
  rw [asks] at found
  obtain ⟨v, placed, least⟩ :=
    Hit.column_least _ _ w (measured.last shown) measured.words value index found
  have proper := measured.range
  have scale : s.xScale = ⟨s.xScale.distribution, some (low, high)⟩ := by rw [← range]
  rw [range] at proper
  rw [scale] at reads
  refine ⟨w, _, shown, inside, column_drawn range index v placed, ?_⟩
  intro j there
  obtain ⟨u, placedAt⟩ := column_placed s.xScale.distribution _ (measured.last shown) j there
  exact ⟨_, column_drawn range j u placedAt, Scale.nearer_drawn _ s.box proper.2.2 measured.wide
    reads (least j u there placedAt).1⟩

theorem Measured.indexAt_centre (shown : s.window = some w)
    (range : s.xScale.range = some (low, high)) (spans : low < high) (x y : Rat)
    (within : Hit.Within s.box (s.canvasX x) (s.canvasY y)) (index : Nat)
    (inside : w.contains index = true)
    (centre : s.columnPixel? index = some (s.canvasX x)) :
    ∃ k, s.indexAt? x y = some k ∧
      match s.xScale.distribution with
      | .ordinal => k = index
      | .linear => s.data.series[k]? = s.data.series[index]? ∧
          ∀ j, w.contains j = true → s.data.series[j]? = s.data.series[index]? → k ≤ j := by
  have last := measured.last shown
  obtain ⟨value, reads, asks⟩ := indexAt_reads shown range x y within
  obtain ⟨k, found⟩ := Option.isSome_iff_exists.mp
    (Hit.column_isSome s.xScale.distribution s.data.series w last value)
  obtain ⟨v, placed, least⟩ := Hit.column_least _ _ w last measured.words value k found
  obtain ⟨u, placedAt⟩ := column_placed s.xScale.distribution s.data.series last index inside
  -- the value read off at the place of the column is the value of the column
  have scale : s.xScale = ⟨s.xScale.distribution, some (low, high)⟩ := by rw [← range]
  have drawn := (column_drawn range index u placedAt).symm.trans centre
  rw [scale, ← Option.some.inj drawn, Scale.value_drawn _ s.box spans measured.wide,
    Option.some.injEq] at reads
  subst reads
  have zero : |v - u| ≤ 0 := by
    have near := (least index u inside placedAt).1
    rwa [sub_self, abs_zero] at near
  have same : v = u := sub_eq_zero.mp (abs_nonpos_iff.mp zero)
  subst same
  refine ⟨k, asks.trans found, ?_⟩
  cases spacing : s.xScale.distribution with
  | ordinal =>
      rw [spacing] at placed placedAt
      have equal : (k : Rat) = index := Option.some.inj (placed.trans placedAt.symm)
      exact_mod_cast equal
  | linear =>
      rw [spacing] at placed placedAt least
      refine ⟨placed.trans placedAt.symm, ?_⟩
      intro j there equal
      have nearest := (least j v there (equal.trans placedAt)).2 rfl
      by_contra before
      exact lt_irrefl _ (nearest (not_le.mp before))

structure Inverts (s : Scene Rat) (x y : Rat) : Prop where
  somewhere : (s.indexAt? x y).isSome = true ↔ s.data.length ≠ 0 ∧
    s.xScale.isDegenerate = false ∧ Hit.Within s.box (s.canvasX x) (s.canvasY y)
  nearest : ∀ index, s.indexAt? x y = some index →
    ∃ w p, s.window = some w ∧ w.contains index = true ∧ s.columnPixel? index = some p ∧
      ∀ j, w.contains j = true →
        ∃ q, s.columnPixel? j = some q ∧ |p - s.canvasX x| ≤ |q - s.canvasX x|
  /-- Pointing at the centre of a column in the window finds it, or the first one drawn there. -/
  centre : ∀ w low high index, s.window = some w → w.contains index = true →
    s.xScale.range = some (low, high) → low < high →
    s.columnPixel? index = some (s.canvasX x) → Hit.Within s.box (s.canvasX x) (s.canvasY y) →
    ∃ k, s.indexAt? x y = some k ∧
      match s.xScale.distribution with
      | .ordinal => k = index
      | .linear => s.data.series[k]? = s.data.series[index]? ∧
          ∀ j, w.contains j = true → s.data.series[j]? = s.data.series[index]? → k ≤ j

theorem Measured.inverts (x y : Rat) : s.Inverts x y where
  somewhere := measured.indexAt_isSome x y
  nearest := measured.indexAt_least x y
  centre _ _ _ index shown inside range spans drawn within :=
    measured.indexAt_centre shown range spans x y within index inside drawn

end Scene

namespace Engine
variable {σ ρ : Type}

theorem reach_words {α : Type} [Scalar α] {backend : Backend ρ α} {screen : ρ} {config : Config σ α}
    {data : Dataset α} {e : Engine σ ρ α}
    (opened : openWith backend screen config data = .opened e)
    (words : data.length ≤ Scalar.largestIndex) (calls : List (Call α))
    (fits : ∀ data, Call.setData data ∈ calls → data.length ≤ Scalar.largestIndex) :
    (e.run calls).scene.data.length ≤ Scalar.largestIndex := by
  refine reach_keeps (P := fun e => e.scene.data.length ≤ Scalar.largestIndex) opened
    (fun p _ => p.keeps_any) ?_ ?_ calls ?_
  · intro first start
    rw [start.scene]
    exact words
  · intro e₁ e₂ step before
    rw [step.steady.data]
    exact before
  · intro c member e' _ before
    refine turn_words e' c ?_ before
    intro data same
    exact fits data (same ▸ member)

section Plot
variable {backend : Backend ρ Rat} {screen : ρ} {config : Config σ Rat} {data : Dataset Rat}

section Laid
variable {first : Engine σ ρ Rat} (start : LaidOut backend screen config data first)
include start

theorem LaidOut.wide : 0 < first.scene.box.width := by
  obtain ⟨_, _, _, large, _⟩ := Box.ofViewport_eq_ok start.box
  norm_num at large
  exact large

theorem LaidOut.tall : 0 < first.scene.box.height := by
  obtain ⟨_, _, _, _, large⟩ := Box.ofViewport_eq_ok start.box
  norm_num at large
  exact large

end Laid

variable {e : Engine σ ρ Rat} (opened : openWith backend screen config data = .opened e)
  (calls : List (Call Rat))
include opened

theorem reach_wide : 0 < (e.run calls).scene.box.width := by
  obtain ⟨_, start, setting⟩ := reach_setting opened calls
  rw [setting.box]
  exact start.wide

theorem reach_tall : 0 < (e.run calls).scene.box.height := by
  obtain ⟨_, start, setting⟩ := reach_setting opened calls
  rw [setting.box]
  exact start.tall

end Plot

section Reachable
variable {backend : Backend ρ Rat} {screen : ρ} {config : Config σ Rat} {data : Dataset Rat}
  {e : Engine σ ρ Rat} (opened : openWith backend screen config data = .opened e)
  (words : data.length ≤ Scalar.largestIndex) (calls : List (Call Rat))
  (fits : ∀ data, Call.setData data ∈ calls → data.length ≤ Scalar.largestIndex)
include opened words fits

theorem reach_measured : (e.run calls).scene.Measured := by
  have sound := reach_sound opened words calls fits
  exact ⟨reach_wide opened calls, sound.window, sound.xRange, reach_words opened words calls fits⟩

/-- In every reachable engine the hit test inverts the drawing: it finds a column exactly if there
are columns, an axis to place them on, and a pointer in the plot, and then one that is drawn nearest
to the pointer. -/
theorem hit_test_inverts_drawing (x y : Rat) : (e.run calls).scene.Inverts x y :=
  (reach_measured opened words calls fits).inverts x y

end Reachable

def crossedColumns : Dataset Rat :=
  .dense [3.0, 1.0, 3.0, 2.0] [[10.0], [20.0], [30.0], [40.0]] [[1.0], [2.0], [3.0], [4.0]]
    ⟨0.0, 4.0⟩

/-- Pointing at the centre of the third column, where the first one is drawn as well. -/
theorem crossed_columns_found : ∃ e, openWith Recorder.backend .fresh (.standard .standard)
      crossedColumns = .opened e ∧
    (e.run [.setWindow 0 2]).scene.columnPixel? 2 =
      some ((e.run [.setWindow 0 2]).scene.canvasX 1368.0) ∧
    (e.run [.setWindow 0 2]).indexAt? 1368.0 100.0 = some 0 ∧
    (e.run [.setWindow 0 2]).scene.Inverts 1368.0 100.0 := by
  have evaluated : (openWith Recorder.backend .fresh (.standard .standard) crossedColumns).passes
      (fun e => let reached := e.run [.setWindow 0 2]
        decide (reached.scene.columnPixel? 2 = some (reached.scene.canvasX 1368.0)) &&
          decide (reached.indexAt? 1368.0 100.0 = some 0)) = true := by decide +kernel
  obtain ⟨e, opened, test⟩ := (Opening.passes_iff _ _).mp evaluated
  simp only [Bool.and_eq_true, decide_eq_true_eq] at test
  exact ⟨e, opened, test.1, test.2,
    hit_test_inverts_drawing opened (by decide) [.setWindow 0 2] (by simp) 1368.0 100.0⟩

end Engine
end LadderChart
