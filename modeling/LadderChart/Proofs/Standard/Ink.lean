import LadderChart.Proofs.Data.Extent
import LadderChart.Proofs.Ink.Heat
import LadderChart.Proofs.Ink.Valid
import LadderChart.Proofs.Number.Round
import LadderChart.Proofs.Number.Text
import LadderChart.Proofs.Standard.Hooks

/-!
The ink of the standard chart. Texts are not empty, heat is a channel between zero and one, cells
have a width that is not negative, and sizes of lines and letters are multiples of the pixel ratio.
What is left to go wrong is where labels and cells stand: the ink passes its check exactly if they
all stand at finite places. Over rational numbers they always do.
-/

namespace LadderChart

/-- Colours and sizes made of these scalars are good, whatever they are made for. -/
class Scalar.Inked (α : Type) [Scalar α] : Prop where
  axes : (Axes.color : Color α).check = .ok ()
  style : (Style.standard : Style α).Fit
  heat (weight : α) (range : ColorRange α) : (Heat.fill weight range).check = .ok ()
  body (columnWidth : α) : finite (LadderStyle.standard.bodyWidth columnWidth) = true ∧
    (0.0 : α) ≤ LadderStyle.standard.bodyWidth columnWidth
  cell : finite (LadderStyle.standard.cellHeight : α) = true ∧
    (0.0 : α) ≤ LadderStyle.standard.cellHeight

/-- The frame of the plot, and what stands beside it, is in place; lines and letters have sizes. -/
structure Scene.Framed {α : Type} [Scalar α] (s : Scene α) : Prop where
  line : positive s.pixelRatio = true
  title : positive (16.0 * s.pixelRatio) = true
  letters : positive (11.0 * s.pixelRatio) = true
  heading : finite (Box.ofWord s.viewport.width / 2.0 : α) = true ∧
    finite (6.0 * s.pixelRatio) = true
  corner : finite s.box.left = true ∧ finite s.box.top = true
  opposite : finite s.box.right = true ∧ finite s.box.bottom = true
  below : finite (s.box.bottom + 6.0 * s.pixelRatio) = true
  beside : finite (s.box.left - 6.0 * s.pixelRatio) = true

/-- Every label of the axes and every cell has a finite place. -/
structure Scene.Placeable {α : Type} [Scalar α] (o : Options α) (s : Scene α) : Prop where
  columns : ∀ l ∈ Axes.columnLabels o s, finite l.1 = true
  rungs : ∀ l ∈ Axes.rungLabels s, finite l.1 = true
  cells : ∀ c ∈ LadderStyle.standard.cells s, finite c.rect.x = true ∧ finite c.rect.y = true

namespace LadderStyle
variable {α : Type} [Scalar α] (style : LadderStyle α) (s : Scene α)

/-- Cells stand around the centre of their column, each at its rung, all in one width and height. -/
theorem mem_cells (c : Cell α) (member : c ∈ style.cells s) :
    ∃ pitch centre, s.pitch? = some pitch ∧ s.columnPixel? c.index = some centre ∧
      c.rect.x = centre - style.bodyWidth pitch / 2.0 ∧
      c.rect.width = style.bodyWidth pitch ∧ c.rect.height = style.cellHeight ∧
      c.rect.fill = Heat.fill c.weight s.data.colorRange ∧
      (∃ w, s.window = some w ∧ w.contains c.index = true) ∧
      c.rung ∈ s.data.rungsAt c.index ∧ s.rungPixel? c.rung = some c.rect.y := by
  unfold cells at member
  split at member
  · rename_i w pitch shown wide
    obtain ⟨index, inside, inColumn⟩ := List.mem_flatMap.mp member
    unfold columnCells at inColumn
    split at inColumn
    · cases inColumn
    · rename_i centre placed
      obtain ⟨entry, paired, drawn⟩ := List.mem_filterMap.mp inColumn
      obtain ⟨y, sited, same⟩ := Option.map_eq_some_iff.mp drawn
      subst same
      exact ⟨pitch, centre, wide, placed, rfl, rfl, rfl, rfl,
        ⟨w, shown, (w.mem_indices index).mp inside⟩, (List.of_mem_zip paired).1, sited⟩
  · cases member

end LadderStyle

section Drawing
variable {α : Type} [Scalar α] (o : Options α) (s : Scene α)

namespace Axes

section Texts
variable [Scalar.Written α]

theorem columnText_written (value : α) : (columnText o value).isEmpty = false := by
  unfold columnText
  split
  · exact Stamp.label_written value o.zone
  · exact Scalar.Written.plain value

theorem columnLabels_written (l : α × String) (member : l ∈ columnLabels o s) :
    l.2.isEmpty = false := by
  unfold columnLabels at member
  split at member
  · cases member
  · obtain ⟨index, _, labelled⟩ := List.mem_filterMap.mp member
    unfold columnLabel? at labelled
    split at labelled
    · cases labelled
      exact columnText_written o _
    · cases labelled

theorem rungLabels_written (l : α × String) (member : l ∈ rungLabels s) :
    l.2.isEmpty = false := by
  unfold rungLabels at member
  split at member
  · cases member
  · obtain ⟨value, _, labelled⟩ := List.mem_filterMap.mp member
    obtain ⟨y, _, same⟩ := Option.map_eq_some_iff.mp labelled
    rw [← same]
    exact Scalar.Written.fixed _ _

end Texts

theorem titleStrokes_fit (framed : s.Framed) : ∀ stroke ∈ titleStrokes o s, stroke.Fit := by
  intro stroke member
  unfold titleStrokes at member
  split at member
  · cases member
  · rename_i written
    have title : o.title.isEmpty = false := by simpa using written
    simp only [List.mem_cons, List.not_mem_nil, or_false] at member
    rcases member with rfl | rfl | rfl
    · exact framed.title
    · trivial
    · exact ⟨title, framed.heading⟩

theorem strokes_fit [Scalar.Written α] [Scalar.Inked α] (framed : s.Framed)
    (placeable : s.Placeable o) : Stroke.AllFit (strokes o s) := by
  have dark : (color : Color α).check = .ok () := Scalar.Inked.axes
  have columns : ∀ l ∈ columnLabels o s, (Stroke.label l.2 l.1
      (s.box.bottom + 6.0 * s.pixelRatio)).Fit := fun l member =>
    ⟨columnLabels_written o s l member, placeable.columns l member, framed.below⟩
  have rungs : ∀ l ∈ rungLabels s, (Stroke.label l.2 (s.box.left - 6.0 * s.pixelRatio) l.1).Fit :=
    fun l member => ⟨rungLabels_written s l member, framed.beside, placeable.rungs l member⟩
  refine ⟨?_, trivial⟩
  simp only [Stroke.Fit, Stroke.allFit_iff, List.forall_mem_append, List.forall_mem_cons,
    List.forall_mem_map, List.not_mem_nil, IsEmpty.forall_iff, implies_true, and_true]
  -- the two lines of the frame share the corner at the bottom left
  refine ⟨⟨⟨⟨⟨dark, dark, framed.line, ?_, ?_⟩, titleStrokes_fit o s framed⟩, framed.letters⟩,
    columns⟩, rungs⟩
  · exact ⟨framed.corner.1, framed.corner.2, framed.corner.1, framed.opposite.2⟩
  · exact ⟨framed.corner.1, framed.opposite.2, framed.opposite.1, framed.opposite.2⟩

theorem strokes_sited (sited : Stroke.AllSited (strokes o s)) :
    (∀ l ∈ columnLabels o s, finite l.1 = true) ∧ ∀ l ∈ rungLabels s, finite l.1 = true := by
  obtain ⟨body, _⟩ := sited
  simp only [Stroke.Sited, Stroke.allSited_iff, List.forall_mem_append, List.forall_mem_map] at body
  exact ⟨fun l member => (body.1.1.2 l member).1, fun l member => (body.2 l member).2⟩

end Axes

namespace LadderStyle

theorem cells_fit [Scalar.Inked α] (placeable : s.Placeable o) :
    Stroke.AllFit ((LadderStyle.standard.cells s).flatMap LadderStyle.strokes) := by
  rw [Stroke.allFit_iff]
  intro stroke member
  obtain ⟨c, there, drawn⟩ := List.mem_flatMap.mp member
  obtain ⟨pitch, _, _, _, _, width, height, fill, _⟩ := mem_cells .standard s c there
  have wide := Scalar.Inked.body pitch
  have tall := Scalar.Inked.cell (α := α)
  simp only [strokes, List.mem_cons, List.not_mem_nil, or_false] at drawn
  rcases drawn with rfl | rfl
  · rw [Stroke.Fit, fill]
    exact Scalar.Inked.heat _ _
  · rw [Stroke.Fit, width, height]
    exact ⟨placeable.cells c there, wide.1, tall.1, wide.2, tall.2⟩

theorem cells_sited
    (sited : Stroke.AllSited ((LadderStyle.standard.cells s).flatMap LadderStyle.strokes)) :
    ∀ c ∈ LadderStyle.standard.cells s, finite c.rect.x = true ∧ finite c.rect.y = true := by
  intro c member
  rw [Stroke.allSited_iff] at sited
  have rect : Stroke.rect c.rect.x c.rect.y c.rect.width c.rect.height ∈ strokes c := by
    simp [strokes]
  exact sited _ (List.mem_flatMap.mpr ⟨c, member, rect⟩)

end LadderStyle

namespace Engine
variable {o s}

theorem picture_fits [Scalar.Written α] [Scalar.Inked α] (framed : s.Framed)
    (placeable : s.Placeable o) : (picture o s).Fit := by
  have standard : (Style.standard : Style α).Fit := Scalar.Inked.style
  have reset : ∀ {c : Canvas α}, c.Fit → c.resetStyle.Fit :=
    fun fit => ⟨standard, by simp [Canvas.resetStyle], fit.ink⟩
  have blank : (Canvas.blank : Canvas α).Fit := ⟨standard, by simp [Canvas.blank], rfl⟩
  have axes := blank.run _ (Axes.strokes_fit o s framed placeable)
  exact reset ((reset axes).apply _ (LadderStyle.cells_fit o s placeable))

theorem picture_placeable (fine : (picture o s).ink.check = .ok ()) : s.Placeable o := by
  obtain ⟨before, cells⟩ := Canvas.apply_sited _ _ fine
  obtain ⟨_, axes⟩ := Canvas.run_sited _ _ before
  obtain ⟨columns, rungs⟩ := Axes.strokes_sited o s axes
  exact ⟨columns, rungs, LadderStyle.cells_sited s cells⟩

/-- The ink of a full pass is good exactly if everything in it has a place. -/
theorem picture_check_iff [Scalar.Written α] [Scalar.Inked α] (framed : s.Framed) :
    (picture o s).ink.check = .ok () ↔ s.Placeable o :=
  ⟨picture_placeable, fun placeable => (picture_fits framed placeable).ink⟩

/-! ### Frames -/

section Frames
variable {ρ : Type}

theorem fullFrame_check {e : Engine Band ρ α} (viewport : e.scene.viewport.check = .ok ())
    (under : (underInk e.options e.scene e.surfaces.under).check = .ok ())
    (ink : e.surfaces.canvas.ink.check = .ok ())
    (upper : (overInk e.surfaces.pointer).check = .ok ()) : e.fullFrame.check = .ok () := by
  have blank := Frame.full_check (α := α) viewport
  exact Frame.setLayer_check (Frame.setLayer_check (Frame.setLayer_check blank under) ink) upper

theorem overlayFrame_check {e : Engine Band ρ α} (viewport : e.scene.viewport.check = .ok ())
    (under : (underInk e.options e.scene e.surfaces.under).check = .ok ())
    (upper : (overInk e.surfaces.pointer).check = .ok ()) : e.overlayFrame.check = .ok () := by
  have blank := Frame.overlay_check (α := α) viewport
  exact Frame.setLayer_check (Frame.setLayer_check blank under) upper

end Frames

end Engine
end Drawing

/-! ### Rational numbers -/

theorem finite_rat (q : Rat) : finite q = true := rfl

theorem positive_rat (q : Rat) (pos : 0 < q) : positive q = true := by
  simp only [positive, Scalar.isFinite_rat, Scalar.zero_rat, Bool.true_and, Bool.not_eq_true',
    decide_eq_false_iff_not, not_le]
  exact pos

theorem LadderStyle.bodyWidth_nonneg (style : LadderStyle Rat) (columnWidth : Rat) :
    (0.0 : Rat) ≤ style.bodyWidth columnWidth :=
  (Extent.upper_spec (Scalar.lower style.widest (columnWidth - style.gap)) (0.0 : Rat)
    (Scalar.isNaN_rat _) (Scalar.isNaN_rat _)).2.2

instance : Scalar.Inked Rat where
  axes := by
    apply Color.check_rat <;> simp only [Axes.color] <;> norm_num
  style := by
    have black : (Color.black : Color Rat).check = .ok () := by
      apply Color.check_rat <;> simp only [Color.black] <;> norm_num
    refine ⟨black, black, positive_rat _ ?_, positive_rat _ ?_⟩
    · simp only [Style.standard]
      norm_num
    · simp only [Style.standard]
      norm_num
  heat := Heat.fill_check
  body columnWidth := ⟨finite_rat _, LadderStyle.bodyWidth_nonneg .standard columnWidth⟩
  cell := by
    refine ⟨finite_rat _, ?_⟩
    simp only [LadderStyle.standard]
    norm_num

/-- The plot has a size, and so have the canvas and the pixels. -/
structure Scene.Plotted (s : Scene Rat) : Prop where
  viewport : s.viewport.check = .ok ()
  ratio : 0 < s.pixelRatio
  wide : 0 < s.box.width
  tall : 0 < s.box.height

theorem Scene.Plotted.framed {s : Scene Rat} (plotted : s.Plotted) : s.Framed := by
  have scaled : ∀ size : Rat, 0 < size → positive (size * s.pixelRatio) = true :=
    fun size pos => positive_rat _ (mul_pos pos plotted.ratio)
  exact ⟨positive_rat _ plotted.ratio, scaled _ (by norm_num), scaled _ (by norm_num), ⟨rfl, rfl⟩,
    ⟨rfl, rfl⟩, ⟨rfl, rfl⟩, rfl, rfl⟩

theorem Scene.placeable_rat (o : Options Rat) (s : Scene Rat) : s.Placeable o :=
  ⟨fun _ _ => rfl, fun _ _ => rfl, fun _ _ => ⟨rfl, rfl⟩⟩

theorem Engine.picture_fit (o : Options Rat) (s : Scene Rat) (plotted : s.Plotted) :
    (picture o s).Fit :=
  picture_fits plotted.framed (s.placeable_rat o)

end LadderChart
