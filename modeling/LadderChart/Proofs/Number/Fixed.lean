import LadderChart.Proofs.Json.Literal
import LadderChart.Proofs.Number.Nearest
import LadderChart.Proofs.Number.Round

/-!
Text with a set number of places, read back. What is read is a whole number of units of the last
place, the one nearest to the value that was written, and an even one if two are as near. So two
values that are a unit apart or more keep their order, except where both fall halfway and meet at
the even number between them.
-/

namespace LadderChart

namespace Digits

theorem stops_cons {c : Char} (rest : List Char) (other : Digit.ofChar? c = none) :
    Stops (c :: rest) := by
  intro first head
  cases head
  exact other

theorem foldl_zeros (k : Nat) : (zeros k).foldl (fun sum d => 10 * sum + d.val) 0 = 0 := by
  induction k with
  | zero => rfl
  | succ k ih => exact ih

theorem value_padded (k n : Nat) : value (zeros k ++ ofNat n) = n := by
  rw [value, List.foldl_append, foldl_zeros]
  exact value_ofNat n

theorem foldl_below (digits : List Digit) (start : Nat) :
    digits.foldl (fun sum d => 10 * sum + d.val) start < (start + 1) * 10 ^ digits.length := by
  induction digits generalizing start with
  | nil => simp
  | cons d rest ih =>
      have digit := d.isLt
      calc rest.foldl (fun sum d => 10 * sum + d.val) (10 * start + d.val)
          < (10 * start + d.val + 1) * 10 ^ rest.length := ih _
        _ ≤ (start + 1) * 10 * 10 ^ rest.length := Nat.mul_le_mul_right _ (by omega)
        _ = (start + 1) * 10 ^ (d :: rest).length := by rw [List.length_cons, pow_succ']; ring

theorem le_foldl (digits : List Digit) (start : Nat) :
    start * 10 ^ digits.length ≤ digits.foldl (fun sum d => 10 * sum + d.val) start := by
  induction digits generalizing start with
  | nil => simp
  | cons d rest ih =>
      calc start * 10 ^ (d :: rest).length = 10 * start * 10 ^ rest.length := by
            rw [List.length_cons, pow_succ']; ring
        _ ≤ (10 * start + d.val) * 10 ^ rest.length := Nat.mul_le_mul_right _ (by omega)
        _ ≤ rest.foldl (fun sum d => 10 * sum + d.val) (10 * start + d.val) := ih _

theorem length_ofNat_le {n width : Nat} (room : 1 ≤ width) (below : n < 10 ^ width) :
    (ofNat n).length ≤ width := by
  by_cases zero : n = 0
  · subst zero
    exact room
  · obtain ⟨d, rest, digits, first⟩ := ofNat_leading n zero
    have least := le_foldl rest d.val
    have read := value_ofNat n
    rw [digits, value, List.foldl_cons, mul_zero, zero_add] at read
    rw [read] at least
    -- a first digit that is not zero stands for so many powers of ten
    have powers : 10 ^ rest.length < 10 ^ width :=
      ((Nat.le_mul_of_pos_left _ (Nat.pos_of_ne_zero first)).trans least).trans_lt below
    rw [digits, List.length_cons]
    exact (Nat.pow_lt_pow_iff_right (by decide)).mp powers

theorem lt_count (n : Nat) : n < 10 ^ count n := by
  by_cases zero : n = 0
  · subst zero
    exact Nat.one_pos
  · have below := foldl_below (ofNat n) 0
    rw [show (ofNat n).foldl (fun sum d => 10 * sum + d.val) 0 = n from value_ofNat n, zero_add,
      one_mul] at below
    rw [count, if_neg zero]
    exact below

end Digits

/-! ### Rounding to a unit -/

/-- The whole number that is nearest to a value, and an even one if two are as near. -/
structure Rounding.NearestEven (x : Rat) (n : Int) : Prop where
  near : |(n : Rat) - x| ≤ 1 / 2
  tie : |(n : Rat) - x| = 1 / 2 → n % 2 = 0

namespace Rounding.NearestEven

theorem neg {x : Rat} {n : Int} (nearest : NearestEven x n) : NearestEven (-x) (-n) := by
  have same : |((-n : Int) : Rat) - -x| = |(n : Rat) - x| := by
    rw [Int.cast_neg, neg_sub_neg, abs_sub_comm]
  constructor
  · rw [same]
    exact nearest.near
  · rw [same]
    intro half
    have even := nearest.tie half
    omega

/-- Values a unit apart keep their order, or fall halfway on either side of an even number. -/
theorem lt_or_meet {x y : Rat} {m n : Int} (first : NearestEven x m) (second : NearestEven y n)
    (apart : x + 1 ≤ y) : m < n ∨ n = m ∧ m % 2 = 0 ∧ x = m - 1 / 2 ∧ y = m + 1 / 2 := by
  obtain ⟨_, above⟩ := abs_le.mp first.near
  obtain ⟨below, _⟩ := abs_le.mp second.near
  have ordered : m ≤ n := by
    have : (m : Rat) ≤ n := by linarith
    exact_mod_cast this
  rcases ordered.lt_or_eq with less | rfl
  · exact .inl less
  · have left : x = m - 1 / 2 := by linarith
    refine .inr ⟨rfl, first.tie ?_, left, by linarith⟩
    rw [left, sub_sub_cancel]
    exact abs_of_pos one_half_pos

/-- From halfway below or above, rounding takes the even one. -/
theorem eq_of_half {x : Rat} {k n : Int} (nearest : NearestEven x n) (even : k % 2 = 0)
    (half : |(k : Rat) - x| = 1 / 2) : n = k := by
  have between : |(n : Rat) - k| ≤ 1 := by
    have sum := abs_sub_le (n : Rat) x k
    rw [abs_sub_comm x, half] at sum
    linarith [nearest.near]
  have close : |n - k| ≤ 1 := by exact_mod_cast between
  rcases abs_le.mp close with ⟨least, most⟩
  -- a neighbour of `k` would be odd, and as near as it is only if that were a tie
  by_contra other
  have odd : n % 2 ≠ 0 := by omega
  have whole : |(n : Rat) - k| = 1 := by
    rcases (by omega : n = k + 1 ∨ n = k - 1) with rfl | rfl <;> push_cast <;> norm_num
  apply odd (nearest.tie (le_antisymm nearest.near _))
  have sum := abs_sub_le (n : Rat) x k
  rw [abs_sub_comm x, half, whole] at sum
  linarith

end Rounding.NearestEven

namespace Fraction

/-- How many units of the last of so many places. -/
def units (places : Nat) (q : Rat) : Int :=
  let size : Int := Rounding.halfEven (q.num.natAbs * Nat.pow 10 places) q.den
  if q.num < 0 then -size else size

theorem units_nearest (places : Nat) (q : Rat) :
    Rounding.NearestEven (q * 10 ^ places) (units places q) := by
  have nearest : Rounding.NearestEven (|q| * 10 ^ places)
      (Rounding.halfEven (q.num.natAbs * 10 ^ places) q.den) := by
    have size : |q| * 10 ^ places =
        ((q.num.natAbs * 10 ^ places : Nat) : Rat) / (q.den : Rat) := by
      conv_lhs => rw [← Rat.num_div_den q]
      rw [abs_div, Nat.abs_cast, Nat.cast_mul, Nat.cast_natAbs, Int.cast_abs, Nat.cast_pow,
        Nat.cast_ofNat, div_mul_eq_mul_div]
    rw [size]
    refine ⟨?_, ?_⟩
    · rw [Int.cast_natCast]
      exact Rounding.halfEven_near _ _ q.den_pos
    · rw [Int.cast_natCast]
      intro half
      exact_mod_cast Rounding.halfEven_tie _ _ q.den_pos half
  rw [units, Nat.pow_eq]
  split
  · rename_i negative
    have opposite := nearest.neg
    rw [abs_of_neg (Rat.num_neg.mp negative), neg_mul, neg_neg] at opposite
    exact opposite
  · rename_i nonneg
    rw [abs_of_nonneg (Rat.num_nonneg.mp (not_lt.mp nonneg))] at nearest
    exact nearest

/-! ### Reading -/

/-- The digits before and after the point as a number. -/
def decimal? (whole rest : List Digit) : Option Rat :=
  if whole.isEmpty then none else some (Digits.value (whole ++ rest) / 10 ^ rest.length)

def unsigned? (text : List Char) : Option Rat :=
  let whole := Digits.scan text
  match whole.2 with
  | [] => decimal? whole.1 []
  | c :: rest =>
      let places := Digits.scan rest
      if c = '.' ∧ places.2 = [] then decimal? whole.1 places.1 else none

/-- Plain decimals as numbers: a sign, digits, and a point with more digits. -/
def read? (text : List Char) : Option Rat :=
  if text.head? = some '-' then (unsigned? text.tail).map (- ·) else unsigned? text

theorem unsigned_digits (digits : List Digit) (places : Nat) (length : places < digits.length) :
    unsigned? (Digits.text (digits.take (digits.length - places)) ++
      if places = 0 then [] else '.' :: Digits.text (digits.drop (digits.length - places))) =
      some ((Digits.value digits : Rat) / 10 ^ places) := by
  have filled : (digits.take (digits.length - places)).isEmpty = false := by
    rw [List.isEmpty_eq_false_iff, ← List.length_pos_iff, List.length_take]
    omega
  have after : (digits.drop (digits.length - places)).length = places := by
    rw [List.length_drop]
    omega
  have decimal : decimal? (digits.take (digits.length - places))
      (digits.drop (digits.length - places)) =
      some ((Digits.value digits : Rat) / 10 ^ places) := by
    rw [decimal?, if_neg (by simp [filled]), List.take_append_drop, after]
  by_cases none : places = 0
  · subst none
    rw [Nat.sub_zero, List.drop_length] at decimal
    simp only [if_true, List.append_nil, Nat.sub_zero, unsigned?, Digits.scan_text_nil, decimal]
  · have stops := Digits.stops_cons (c := '.')
      (Digits.text (digits.drop (digits.length - places))) (by decide)
    simp only [if_neg none, unsigned?, Digits.scan_text _ _ stops, Digits.scan_text_nil, and_self,
      if_true, decimal]

theorem unsigned_pointed (n places : Nat) :
    unsigned? (pointed n places) = some ((n : Rat) / 10 ^ places) := by
  have digits := unsigned_digits
    (Digits.zeros (places + 1 - (Digits.ofNat n).length) ++ Digits.ofNat n) places (by
      rw [List.length_append, Digits.zeros, List.length_replicate]
      omega)
  rw [Digits.value_padded] at digits
  exact digits

theorem pointed_head (n places : Nat) : (pointed n places).head? ≠ some '-' := by
  intro minus
  have read := unsigned_pointed n places
  cases text : pointed n places with
  | nil => exact absurd text (pointed_ne_nil n places)
  | cons c rest =>
      rw [text, List.head?_cons, Option.some.injEq] at minus
      subst minus
      have none : Digits.scan ('-' :: rest) = ([], '-' :: rest) :=
        Digits.scan_stops _ fun c head => by cases head; decide
      rw [text] at read
      simp [unsigned?, none] at read

theorem read_fixed (places : Nat) (q : Rat) :
    read? (Scalar.fixed places q).toList = some ((units places q : Rat) / 10 ^ places) := by
  have text : (Scalar.fixed places q).toList =
      sign (q.num < 0) (pointed (Rounding.halfEven (q.num.natAbs * Nat.pow 10 places) q.den) places) :=
    String.toList_ofList
  rw [text, units]
  by_cases negative : q.num < 0
  · simp only [sign, negative, decide_true, if_true, read?, List.head?_cons, List.tail_cons,
      unsigned_pointed, Option.map_some]
    push_cast
    rw [neg_div]
  · simp only [sign, negative, decide_false, Bool.false_eq_true, if_false, read?, pointed_head,
      unsigned_pointed]
    push_cast
    rfl

end Fraction
end LadderChart
