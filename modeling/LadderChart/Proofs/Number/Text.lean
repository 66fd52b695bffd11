import LadderChart.Number.Plain
import LadderChart.Time.Stamp

/-!
Texts of numbers are not empty, so none of them is refused as a label.
-/

namespace LadderChart

theorem Digits.collect_ne_nil (steps n : Nat) (found : List Digit) :
    collect steps n found ≠ [] := by
  induction steps generalizing n found with
  | zero => simp [collect]
  | succ steps ih =>
      simp only [collect]
      split
      · simp
      · exact ih _ _

theorem Digits.text_ofNat_ne_nil (n : Nat) : text (ofNat n) ≠ [] := by
  simp [text, ofNat, collect_ne_nil]

namespace Fraction

theorem pointed_ne_nil (n places : Nat) : pointed n places ≠ [] := by
  by_cases whole : places = 0
  · have digits : Digits.ofNat n ≠ [] := Digits.collect_ne_nil _ _ _
    simp [pointed, whole, Digits.text, digits]
  · simp [pointed, whole]

theorem sign_ne_nil (negative : Bool) (text : List Char) (written : text ≠ []) :
    sign negative text ≠ [] := by
  cases negative <;> simp [sign, written]

end Fraction

theorem ofList_written (text : List Char) (written : text ≠ []) :
    (String.ofList text).isEmpty = false := by
  rw [String.isEmpty_eq_false_iff, ne_eq, String.ofList_eq_empty_iff]
  exact written

/-- A number is written with at least one character, also if it is none. -/
class Scalar.Written (α : Type) [Scalar α] : Prop where
  plain (x : α) : (Scalar.plain x).isEmpty = false
  fixed (places : Nat) (x : α) : (Scalar.fixed places x).isEmpty = false

instance : Scalar.Written Rat where
  plain q := by
    apply ofList_written
    have digits := Fraction.sign_ne_nil (q.num < 0) _ (Digits.text_ofNat_ne_nil q.num.natAbs)
    split
    · exact digits
    · simp
  fixed _ _ := ofList_written _ (Fraction.sign_ne_nil _ _ (Fraction.pointed_ne_nil _ _))

theorem Decimal.positional_ne_nil (d : Decimal) : d.positional ≠ [] := by
  unfold positional
  split
  · simp
  · simp only
    split
    · -- digits and zeros together are as long as the whole part, which is not empty
      intro none
      have length := congrArg List.length none
      simp only [Digits.text, Digits.zeros, List.length_map, List.length_append,
        List.length_replicate, List.length_nil] at length
      omega
    · simp

theorem Double.textWith_written (finite : Double → List Char) (written : ∀ d, finite d ≠ [])
    (x : Float) : (textWith finite x).isEmpty = false := by
  unfold textWith
  split
  · rfl
  · split
    · exact ofList_written _ (Fraction.sign_ne_nil _ _ (written _))
    · split <;> rfl

instance : Scalar.Written Float where
  plain x := by
    apply Double.textWith_written
    intro d
    split
    · simp
    · exact Decimal.positional_ne_nil _
  fixed _ x := Double.textWith_written _ (fun _ => Fraction.pointed_ne_nil _ _) x

theorem Stamp.label_written {α : Type} [Scalar α] [Scalar.Written α] (seconds : α) (zone : Zone) :
    (label seconds zone).isEmpty = false := by
  unfold label
  split
  · split
    · rename_i text stamped
      unfold ofSeconds at stamped
      split at stamped
      · cases checked : zone.check with
        | error fault => simp [checked, bind, Except.bind] at stamped
        | ok _ =>
            simp only [checked, bind, Except.bind, pure, Except.pure, Except.ok.injEq] at stamped
            rw [← stamped]
            exact ofList_written _ (by simp [Stamp.text])
      · cases stamped
    · exact Scalar.Written.fixed 0 seconds
  · rfl

end LadderChart
