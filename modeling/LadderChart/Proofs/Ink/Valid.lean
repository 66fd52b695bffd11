import LadderChart.Ink.Canvas
import LadderChart.Proofs.Data.Valid

/-!
Which ink a canvas ends up with. A stroke is fit if it brings good colours, sizes, places and texts;
what is drawn takes the rest from the style in force, and that was set by strokes before. So a
canvas drawn with fit strokes holds ink that passes every check. Conversely nothing that is drawn
gets lost: ink that passes its check was drawn at finite places only.
-/

namespace LadderChart
variable {α : Type} [Scalar α]

theorem Line.check_eq_ok (l : Line α) : l.check = .ok () ↔
    (finite l.x1 = true ∧ finite l.y1 = true ∧ finite l.x2 = true ∧ finite l.y2 = true) ∧
      positive l.width = true ∧ l.color.check = .ok () := by
  simp only [check, both_eq_ok, refuseIf_eq_ok, Bool.not_eq_false', Bool.and_eq_true, and_assoc]

theorem Rect.check_eq_ok (r : Rect α) : r.check = .ok () ↔
    (finite r.x = true ∧ finite r.y = true) ∧ (finite r.width = true ∧ finite r.height = true ∧
      (0.0 : α) ≤ r.width ∧ (0.0 : α) ≤ r.height) ∧ r.fill.check = .ok () := by
  simp only [check, both_eq_ok, refuseIf_eq_ok, Bool.not_eq_false', Bool.and_eq_true, and_assoc,
    decide_eq_true_eq]

theorem Label.check_eq_ok (l : Label α) : l.check = .ok () ↔
    l.text.isEmpty = false ∧ (finite l.x = true ∧ finite l.y = true) ∧ positive l.size = true ∧
      l.color.check = .ok () := by
  simp only [check, both_eq_ok, refuseIf_eq_ok, Bool.not_eq_false', Bool.and_eq_true]

theorem Layer.check_eq_ok (l : Layer α) : l.check = .ok () ↔
    (∀ line ∈ l.lines, line.check = .ok ()) ∧ (∀ rect ∈ l.rects, rect.check = .ok ()) ∧
      ∀ label ∈ l.labels, label.check = .ok () := by
  simp only [check, both_eq_ok, checkAll_eq_ok]

theorem Frame.check_eq_ok (f : Frame α) : f.check = .ok () ↔
    f.viewport.check = .ok () ∧ ∀ l ∈ f.layers, l.check = .ok () := by
  simp only [check, both_eq_ok, checkAll_eq_ok]

namespace Frame

omit [Scalar α] in
theorem mem_replace (ink l : Layer α) (layers : List (Layer α)) (member : l ∈ replace ink layers) :
    l = ink ∨ l ∈ layers := by
  induction layers with
  | nil => cases member
  | cons first rest ih =>
      unfold replace at member
      split at member
      · rcases List.mem_cons.mp member with one | later
        · exact .inl one
        · exact .inr (List.mem_cons_of_mem first later)
      · rcases List.mem_cons.mp member with one | later
        · exact .inr (one ▸ List.mem_cons_self)
        · exact (ih later).imp id (List.mem_cons_of_mem first)

theorem setLayer_check {f : Frame α} {ink : Layer α} (fine : f.check = .ok ())
    (good : ink.check = .ok ()) : (f.setLayer ink).check = .ok () := by
  obtain ⟨viewport, layers⟩ := f.check_eq_ok.mp fine
  refine (check_eq_ok _).mpr ⟨viewport, ?_⟩
  intro l member
  rcases mem_replace ink l f.layers member with same | before
  · exact same ▸ good
  · exact layers l before

theorem full_check {v : Viewport} (fine : v.check = .ok ()) :
    (full v : Frame α).check = .ok () := by
  refine (check_eq_ok _).mpr ⟨fine, ?_⟩
  simp only [full, List.forall_mem_cons]
  exact ⟨rfl, rfl, rfl, by simp⟩

theorem overlay_check {v : Viewport} (fine : v.check = .ok ()) :
    (overlay v : Frame α).check = .ok () := by
  refine (check_eq_ok _).mpr ⟨fine, ?_⟩
  simp only [overlay, List.forall_mem_cons]
  exact ⟨rfl, rfl, by simp⟩

end Frame

structure Style.Fit (s : Style α) : Prop where
  fill : s.fill.check = .ok ()
  stroke : s.stroke.check = .ok ()
  lineWidth : positive s.lineWidth = true
  fontSize : positive s.fontSize = true

namespace Stroke

mutual

def Fit : Stroke α → Prop
  | .save => True
  | .restore => True
  | .setFill c => c.check = .ok ()
  | .setStroke c => c.check = .ok ()
  | .setLineWidth width => positive width = true
  | .setFontSize size => positive size = true
  | .setAlign _ => True
  | .rect x y width height => (finite x = true ∧ finite y = true) ∧
      finite width = true ∧ finite height = true ∧ (0.0 : α) ≤ width ∧ (0.0 : α) ≤ height
  | .line x1 y1 x2 y2 => finite x1 = true ∧ finite y1 = true ∧ finite x2 = true ∧ finite y2 = true
  | .label text x y => text.isEmpty = false ∧ finite x = true ∧ finite y = true
  | .scope body => AllFit body

def AllFit : List (Stroke α) → Prop
  | [] => True
  | stroke :: rest => Fit stroke ∧ AllFit rest

end

mutual

/-- What the stroke draws stands at a finite place. -/
def Sited : Stroke α → Prop
  | .rect x y _ _ => finite x = true ∧ finite y = true
  | .line x1 y1 x2 y2 => finite x1 = true ∧ finite y1 = true ∧ finite x2 = true ∧ finite y2 = true
  | .label _ x y => finite x = true ∧ finite y = true
  | .scope body => AllSited body
  | _ => True

def AllSited : List (Stroke α) → Prop
  | [] => True
  | stroke :: rest => Sited stroke ∧ AllSited rest

end

theorem allFit_iff (strokes : List (Stroke α)) : AllFit strokes ↔ ∀ s ∈ strokes, s.Fit := by
  induction strokes with
  | nil => simp [AllFit]
  | cons stroke rest ih => simp [AllFit, ih]

theorem allSited_iff (strokes : List (Stroke α)) : AllSited strokes ↔ ∀ s ∈ strokes, s.Sited := by
  induction strokes with
  | nil => simp [AllSited]
  | cons stroke rest ih => simp [AllSited, ih]

end Stroke

namespace Canvas

structure Fit (c : Canvas α) : Prop where
  style : c.style.Fit
  saved : ∀ s ∈ c.saved, s.Fit
  ink : c.ink.check = .ok ()

theorem Fit.save {c : Canvas α} (fit : c.Fit) : c.save.Fit where
  style := fit.style
  saved := List.forall_mem_cons.mpr ⟨fit.style, fit.saved⟩
  ink := fit.ink

theorem Fit.restore {c : Canvas α} (fit : c.Fit) : c.restore.Fit := by
  unfold Canvas.restore
  split
  · rename_i style rest same
    have saved := fit.saved
    rw [same, List.forall_mem_cons] at saved
    exact ⟨saved.1, saved.2, fit.ink⟩
  · exact fit

theorem Fit.addRect {c : Canvas α} (fit : c.Fit) (x y width height : α)
    (drawn : (Stroke.rect x y width height).Fit) : (c.addRect x y width height).Fit := by
  obtain ⟨lines, rects, labels⟩ := (Layer.check_eq_ok c.ink).mp fit.ink
  refine ⟨fit.style, fit.saved, (Layer.check_eq_ok _).mpr ⟨lines, ?_, labels⟩⟩
  have one := (Rect.check_eq_ok ⟨x, y, width, height, c.style.fill⟩).mpr
    ⟨drawn.1, drawn.2, fit.style.fill⟩
  exact List.forall_mem_append.mpr ⟨rects, List.forall_mem_singleton.mpr one⟩

theorem Fit.addLine {c : Canvas α} (fit : c.Fit) (x1 y1 x2 y2 : α)
    (drawn : (Stroke.line x1 y1 x2 y2).Fit) : (c.addLine x1 y1 x2 y2).Fit := by
  obtain ⟨lines, rects, labels⟩ := (Layer.check_eq_ok c.ink).mp fit.ink
  refine ⟨fit.style, fit.saved, (Layer.check_eq_ok _).mpr ⟨?_, rects, labels⟩⟩
  have one := (Line.check_eq_ok ⟨x1, y1, x2, y2, c.style.lineWidth, c.style.stroke⟩).mpr
    ⟨drawn, fit.style.lineWidth, fit.style.stroke⟩
  exact List.forall_mem_append.mpr ⟨lines, List.forall_mem_singleton.mpr one⟩

theorem Fit.addLabel {c : Canvas α} (fit : c.Fit) (text : String) (x y : α)
    (drawn : (Stroke.label text x y).Fit) : (c.addLabel text x y).Fit := by
  obtain ⟨lines, rects, labels⟩ := (Layer.check_eq_ok c.ink).mp fit.ink
  refine ⟨fit.style, fit.saved, (Layer.check_eq_ok _).mpr ⟨lines, rects, ?_⟩⟩
  have one := (Label.check_eq_ok ⟨text, x, y, c.style.fontSize, c.style.fill, c.style.align⟩).mpr
    ⟨drawn.1, drawn.2, fit.style.fontSize, fit.style.fill⟩
  exact List.forall_mem_append.mpr ⟨labels, List.forall_mem_singleton.mpr one⟩

mutual

theorem Fit.apply {c : Canvas α} (fit : c.Fit) (stroke : Stroke α) (fine : stroke.Fit) :
    (c.apply stroke).Fit := by
  cases stroke with
  | save => exact fit.save
  | restore => exact fit.restore
  | setFill color => exact ⟨{ fit.style with fill := fine }, fit.saved, fit.ink⟩
  | setStroke color => exact ⟨{ fit.style with stroke := fine }, fit.saved, fit.ink⟩
  | setLineWidth width => exact ⟨{ fit.style with lineWidth := fine }, fit.saved, fit.ink⟩
  | setFontSize size => exact ⟨{ fit.style with fontSize := fine }, fit.saved, fit.ink⟩
  | setAlign align => exact ⟨{ fit.style with }, fit.saved, fit.ink⟩
  | rect x y width height => exact fit.addRect x y width height fine
  | line x1 y1 x2 y2 => exact fit.addLine x1 y1 x2 y2 fine
  | label text x y => exact fit.addLabel text x y fine
  | scope body => exact (Fit.run fit.save body fine).restore

theorem Fit.run {c : Canvas α} (fit : c.Fit) (strokes : List (Stroke α))
    (fine : Stroke.AllFit strokes) : (c.run strokes).Fit := by
  cases strokes with
  | nil => exact fit
  | cons stroke rest => exact Fit.run (Fit.apply fit stroke fine.1) rest fine.2

end

mutual

/-- Ink that passes its check after a stroke passed it before, and what the stroke drew did. -/
theorem apply_sited (c : Canvas α) (stroke : Stroke α) (fine : (c.apply stroke).ink.check = .ok ()) :
    c.ink.check = .ok () ∧ stroke.Sited := by
  cases stroke with
  | restore =>
      simp only [apply, restore_ink] at fine
      exact ⟨fine, trivial⟩
  | rect x y width height =>
      obtain ⟨lines, rects, labels⟩ := (Layer.check_eq_ok _).mp fine
      obtain ⟨before, one⟩ := List.forall_mem_append.mp rects
      exact ⟨(Layer.check_eq_ok _).mpr ⟨lines, before, labels⟩,
        ((Rect.check_eq_ok _).mp (one _ (List.mem_singleton_self _))).1⟩
  | line x1 y1 x2 y2 =>
      obtain ⟨lines, rects, labels⟩ := (Layer.check_eq_ok _).mp fine
      obtain ⟨before, one⟩ := List.forall_mem_append.mp lines
      exact ⟨(Layer.check_eq_ok _).mpr ⟨before, rects, labels⟩,
        ((Line.check_eq_ok _).mp (one _ (List.mem_singleton_self _))).1⟩
  | label text x y =>
      obtain ⟨lines, rects, labels⟩ := (Layer.check_eq_ok _).mp fine
      obtain ⟨before, one⟩ := List.forall_mem_append.mp labels
      exact ⟨(Layer.check_eq_ok _).mpr ⟨lines, rects, before⟩,
        ((Label.check_eq_ok _).mp (one _ (List.mem_singleton_self _))).2.1⟩
  | scope body =>
      simp only [apply, restore_ink] at fine
      exact run_sited c.save body fine
  | _ => exact ⟨fine, trivial⟩

theorem run_sited (c : Canvas α) (strokes : List (Stroke α))
    (fine : (c.run strokes).ink.check = .ok ()) :
    c.ink.check = .ok () ∧ Stroke.AllSited strokes := by
  cases strokes with
  | nil => exact ⟨fine, trivial⟩
  | cons stroke rest =>
      obtain ⟨before, sited⟩ := run_sited _ rest fine
      obtain ⟨first, drawn⟩ := apply_sited c stroke before
      exact ⟨first, drawn, sited⟩

end

end Canvas
end LadderChart
