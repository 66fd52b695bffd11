import LadderChart.Ink.Canvas

/-!
Ink on other ink. What strokes do to the style and to the saved styles does not depend on the ink
that is there, and to the ink they only add: a program leaves the ink it found, and over it what it
draws on a canvas without any.
-/

namespace LadderChart
variable {α : Type}

namespace Layer

/-- One layer with the ink of others over it, list by list. -/
def stack (base : Layer α) (inks : List (Layer α)) : Layer α where
  kind := base.kind
  lines := base.lines ++ inks.flatMap (·.lines)
  rects := base.rects ++ inks.flatMap (·.rects)
  labels := base.labels ++ inks.flatMap (·.labels)

theorem stack_nil (base : Layer α) : base.stack [] = base := by
  simp [stack]

theorem stack_cons (base ink : Layer α) (rest : List (Layer α)) :
    base.stack (ink :: rest) = (base.append ink).stack rest := by
  simp [stack, append]

end Layer

namespace Canvas

def onto (c : Canvas α) (base : Layer α) : Canvas α := { c with ink := base.append c.ink }

theorem restore_onto (c : Canvas α) (base : Layer α) :
    (c.onto base).restore = c.restore.onto base := by
  obtain ⟨style, saved, ink⟩ := c
  cases saved <;> rfl

mutual

theorem apply_onto (c : Canvas α) (base : Layer α) (stroke : Stroke α) :
    apply (c.onto base) stroke = (apply c stroke).onto base := by
  cases stroke with
  | restore => exact restore_onto c base
  | rect x y width height => simp [apply, addRect, onto, Layer.append]
  | line x1 y1 x2 y2 => simp [apply, addLine, onto, Layer.append]
  | label text x y => simp [apply, addLabel, onto, Layer.append]
  | scope body =>
      -- a scope saves before its body and restores after it, and neither looks at the ink
      have inner := run_onto c.save base body
      simp only [apply]
      rw [← restore_onto, ← inner]
      rfl
  | _ => rfl

theorem run_onto (c : Canvas α) (base : Layer α) (strokes : List (Stroke α)) :
    run (c.onto base) strokes = (run c strokes).onto base := by
  cases strokes with
  | nil => rfl
  | cons stroke rest =>
      simp only [run]
      rw [apply_onto c base stroke]
      exact run_onto _ base rest

end

variable [Scalar α]

/-- The standard style, and nothing saved. -/
structure Fresh (c : Canvas α) : Prop where
  style : c.style = .standard
  saved : c.saved = []

theorem blank_fresh : (blank : Canvas α).Fresh := ⟨rfl, rfl⟩

theorem resetStyle_fresh (c : Canvas α) : c.resetStyle.Fresh := ⟨rfl, rfl⟩

theorem Fresh.eq_onto {c : Canvas α} (fresh : c.Fresh) : c = blank.onto c.ink := by
  obtain ⟨style, saved, ink⟩ := c
  obtain ⟨rfl, rfl⟩ := fresh
  simp [blank, onto, Layer.append, Layer.blank]

/-- What is drawn on a fresh canvas goes over its ink as if there were none. -/
theorem Fresh.run_ink {c : Canvas α} (fresh : c.Fresh) (strokes : List (Stroke α)) :
    (run c strokes).ink = c.ink.append (run blank strokes).ink := by
  have apart := run_onto blank c.ink strokes
  rw [← fresh.eq_onto] at apart
  rw [apart]
  rfl

end Canvas
end LadderChart
