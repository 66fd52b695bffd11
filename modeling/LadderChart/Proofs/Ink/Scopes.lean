import LadderChart.Number.Plain
import LadderChart.Proofs.Ink.Solo

/-!
Scopes that restore. A scope shares one stack of saved styles with the saves and restores that its
body makes by itself, so it closes as it should only if the body closes what it opened and nothing
else. Then it leaves style and stack as they were, and over the ink that was there one piece of ink
for each drawing call, in the style in force at that call.
-/

namespace LadderChart
variable {α : Type}

def Canvas.Flat : Stroke α → Prop
  | .save => False
  | .restore => False
  | .scope _ => False
  | _ => True

/-- From `n` open saves of its own a scope body gets to `m`. It restores only what it saved, and the
scopes inside it end with nothing open. -/
inductive Stroke.Opens : Nat → List (Stroke α) → Nat → Prop
  | done (n : Nat) : Opens n [] n
  | save {n m : Nat} {rest : List (Stroke α)} (later : Opens (n + 1) rest m) :
      Opens n (.save :: rest) m
  | restore {n m : Nat} {rest : List (Stroke α)} (later : Opens n rest m) :
      Opens (n + 1) (.restore :: rest) m
  | scope {n m : Nat} {body rest : List (Stroke α)} (inner : Opens 0 body 0)
      (later : Opens n rest m) : Opens n (.scope body :: rest) m
  | flat {n m : Nat} {stroke : Stroke α} {rest : List (Stroke α)} (flat : Canvas.Flat stroke)
      (later : Opens n rest m) : Opens n (stroke :: rest) m

/-- Every restore of the body undoes a save of the body, and all of its saves are undone. -/
def Stroke.Balanced (body : List (Stroke α)) : Prop := Opens 0 body 0

namespace Stroke

theorem opens_flat (n : Nat) (strokes : List (Stroke α)) (flat : ∀ s ∈ strokes, Canvas.Flat s) :
    Opens n strokes n := by
  induction strokes with
  | nil => exact .done n
  | cons stroke rest ih =>
      obtain ⟨first, later⟩ := List.forall_mem_cons.mp flat
      exact .flat first (ih later)

mutual

/-- The calls that a stroke comes to: a scope saves, makes the calls of its body and restores. -/
def calls : Stroke α → List (Stroke α)
  | .scope body => .save :: (callsOf body ++ [.restore])
  | stroke => [stroke]

def callsOf : List (Stroke α) → List (Stroke α)
  | [] => []
  | stroke :: rest => calls stroke ++ callsOf rest

end

def mark (style : Style α) : Stroke α → Layer α
  | .rect x y width height => { Layer.blank .main with rects := [⟨x, y, width, height, style.fill⟩] }
  | .line x1 y1 x2 y2 =>
      { Layer.blank .main with lines := [⟨x1, y1, x2, y2, style.lineWidth, style.stroke⟩] }
  | .label text x y =>
      { Layer.blank .main with labels := [⟨text, x, y, style.fontSize, style.fill, style.align⟩] }
  | _ => .blank .main

end Stroke

namespace Layer

theorem append_blank (base : Layer α) (kind : LayerKind) : base.append (.blank kind) = base := by
  simp [append, blank]

theorem stack_append (base : Layer α) (first second : List (Layer α)) :
    base.stack (first ++ second) = (base.stack first).stack second := by
  simp [stack]

end Layer

namespace Canvas

/-! ### Styles -/

theorem apply_flat (c : Canvas α) (stroke : Stroke α) (flat : Flat stroke) :
    (apply c stroke).saved = c.saved := by
  cases stroke with
  | save => cases flat
  | restore => cases flat
  | scope body => cases flat
  | _ => rfl

/-- What was saved before the body is not touched, and what the body keeps open lies over it. -/
theorem run_opens {n m : Nat} {strokes : List (Stroke α)} (opens : Stroke.Opens n strokes m)
    (c : Canvas α) (own below : List (Style α)) (saved : c.saved = own ++ below)
    (size : own.length = n) :
    ∃ left, (run c strokes).saved = left ++ below ∧ left.length = m := by
  -- the stack below is fixed for one body; a scope inside has all of the stack below it
  induction opens generalizing c own below with
  | done n => exact ⟨own, saved, size⟩
  | save later ih =>
      refine ih c.save (c.style :: own) below ?_ ?_
      · rw [save, saved, List.cons_append]
      · rw [List.length_cons, size]
  | restore later ih =>
      cases own with
      | nil => cases size
      | cons top own =>
          refine ih c.restore own below ?_ (Nat.succ.inj size)
          rw [restore, saved]
          rfl
  | scope inner later ihInner ihLater =>
      obtain ⟨left, kept, none⟩ := ihInner c.save [] c.save.saved rfl rfl
      rw [List.length_eq_zero_iff.mp none, List.nil_append] at kept
      refine ihLater _ own below ?_ size
      rw [apply, restore, kept]
      exact saved
  | flat flat later ih =>
      refine ih _ own below ?_ size
      rw [apply_flat c _ flat, saved]

/-- A balanced body ends on the stack it began on, so the scope restores what it saved. -/
theorem scope_closes (c : Canvas α) {body : List (Stroke α)} (balanced : Stroke.Balanced body) :
    (c.apply (.scope body)).style = c.style ∧ (c.apply (.scope body)).saved = c.saved := by
  obtain ⟨left, kept, none⟩ := run_opens balanced c.save [] c.save.saved rfl rfl
  rw [List.length_eq_zero_iff.mp none, List.nil_append] at kept
  rw [apply, restore, kept]
  exact ⟨rfl, rfl⟩

theorem Fresh.scope [Scalar α] {c : Canvas α} (fresh : c.Fresh) (body : List (Stroke α))
    (flat : ∀ s ∈ body, Flat s) : (run c [.scope body]).Fresh := by
  obtain ⟨style, saved⟩ := scope_closes c (Stroke.opens_flat 0 body flat)
  exact ⟨style.trans fresh.style, saved.trans fresh.saved⟩

/-! ### Ink -/

/-- The ink of every call, in the style that the calls before it leave. -/
def marks (c : Canvas α) (calls : List (Stroke α)) : List (Layer α) :=
  calls.mapIdx fun i call => call.mark (run c (calls.take i)).style

theorem marks_cons (c : Canvas α) (call : Stroke α) (rest : List (Stroke α)) :
    marks c (call :: rest) = call.mark c.style :: marks (apply c call) rest := by
  simp [marks, List.mapIdx_cons, run]

theorem marks_append (c : Canvas α) (first second : List (Stroke α)) :
    marks c (first ++ second) = marks c first ++ marks (run c first) second := by
  induction first generalizing c with
  | nil => simp [marks, run]
  | cons call rest ih => rw [List.cons_append, marks_cons, marks_cons, ih, run, List.cons_append]

mutual

theorem run_calls (c : Canvas α) (stroke : Stroke α) : run c stroke.calls = apply c stroke := by
  cases stroke with
  | scope body =>
      simp only [Stroke.calls, run, run_append, apply]
      rw [run_callsOf]
  | _ => rfl

theorem run_callsOf (c : Canvas α) (strokes : List (Stroke α)) :
    run c (Stroke.callsOf strokes) = run c strokes := by
  cases strokes with
  | nil => rfl
  | cons stroke rest => rw [Stroke.callsOf, run_append, run_calls, run_callsOf, run]

end

mutual

theorem apply_marks (c : Canvas α) (stroke : Stroke α) :
    (apply c stroke).ink = c.ink.stack (marks c stroke.calls) := by
  cases stroke with
  | scope body =>
      -- saving and restoring leave no ink
      simp only [Stroke.calls, marks_cons, marks_append, apply, restore_ink]
      rw [Layer.stack_cons, Layer.stack_append, run_marks c.save body]
      simp [Stroke.mark, Layer.append_blank, marks, Layer.stack_cons, Layer.stack_nil, save]
  | restore =>
      simp [apply, restore_ink, Stroke.calls, marks, Stroke.mark, Layer.stack_cons,
        Layer.stack_nil, Layer.append_blank]
  | _ =>
      simp [apply, save, addRect, addLine, addLabel, Stroke.calls, marks, Stroke.mark, Layer.stack,
        Layer.blank, run]

theorem run_marks (c : Canvas α) (strokes : List (Stroke α)) :
    (run c strokes).ink = c.ink.stack (marks c (Stroke.callsOf strokes)) := by
  cases strokes with
  | nil => exact (Layer.stack_nil c.ink).symm
  | cons stroke rest =>
      rw [run, run_marks _ rest, apply_marks c stroke, Stroke.callsOf, marks_append,
        Layer.stack_append, run_calls]

end

/-- A scope around a balanced body leaves no trace but ink. Whatever is saved and drawn already,
style and saved styles are as before; and the ink is the ink before, with that of each call of the
program over it, in the style in force when the call is made. -/
theorem scope_restores (c : Canvas α) (body : List (Stroke α)) (balanced : Stroke.Balanced body) :
    (c.apply (.scope body)).style = c.style ∧ (c.apply (.scope body)).saved = c.saved ∧
      c.run (Stroke.scope body).calls = c.apply (.scope body) ∧
      (c.apply (.scope body)).ink = c.ink.stack (c.marks (Stroke.scope body).calls) := by
  obtain ⟨style, saved⟩ := scope_closes c balanced
  exact ⟨style, saved, run_calls c _, apply_marks c _⟩

/-- Red inside the scope, black after it; the line takes a width that was set around the scope. -/
def nestedStrokes : List (Stroke Float) :=
  [.setFill .black, .save, .setLineWidth 3.0,
    .scope [.save, .setFill ⟨1.0, 0.0, 0.0, 1.0⟩, .rect 0.0 0.0 10.0 5.0, .restore,
      .line 0.0 0.0 10.0 5.0, .setFill ⟨0.0, 0.0, 1.0, 1.0⟩],
    .rect 10.0 0.0 10.0 5.0, .restore, .setAlign .right]

def usedCanvas : Canvas Float where
  style := { Style.standard with fill := ⟨0.2, 0.8, 1.0, 0.3⟩, fontSize := 9.0 }
  saved := [.standard]
  ink := { Layer.blank .main with rects := [⟨1.0, 2.0, 3.0, 4.0, .black⟩] }

theorem nested_strokes_restore :
    Stroke.Balanced nestedStrokes ∧
      (usedCanvas.apply (.scope nestedStrokes)).style = usedCanvas.style ∧
      (usedCanvas.apply (.scope nestedStrokes)).saved = [.standard] ∧
      (usedCanvas.apply (.scope nestedStrokes)).ink.rects =
        [⟨1.0, 2.0, 3.0, 4.0, .black⟩, ⟨0.0, 0.0, 10.0, 5.0, ⟨1.0, 0.0, 0.0, 1.0⟩⟩,
          ⟨10.0, 0.0, 10.0, 5.0, .black⟩] ∧
      (usedCanvas.apply (.scope nestedStrokes)).ink.lines =
        [⟨0.0, 0.0, 10.0, 5.0, 3.0, .black⟩] := by
  have inner : Stroke.Opens 0 [.save, .setFill (⟨1.0, 0.0, 0.0, 1.0⟩ : Color Float),
      .rect 0.0 0.0 10.0 5.0, .restore, .line 0.0 0.0 10.0 5.0, .setFill ⟨0.0, 0.0, 1.0, 1.0⟩] 0 :=
    .save (.flat trivial (.flat trivial (.restore (.flat trivial (.flat trivial (.done 0))))))
  have balanced : Stroke.Balanced nestedStrokes :=
    .flat trivial (.save (.flat trivial (.scope inner (.flat trivial (.restore
      (.flat trivial (.done 0)))))))
  obtain ⟨style, saved, _, ink⟩ := scope_restores usedCanvas nestedStrokes balanced
  refine ⟨balanced, style, saved, ?_, ?_⟩
  · rw [ink]
    rfl
  · rw [ink]
    rfl

end Canvas
end LadderChart
