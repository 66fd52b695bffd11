import Mathlib
import LadderChart.Number.Scalar

/-!
Rational numbers as scalars, and the whole number nearest to one of them. No whole number is nearer
than the rounded one, and of the whole numbers in an interval none is nearer than the rounded one
after it was brought into the interval.
-/

namespace LadderChart

namespace Scalar

/-- The scalars are read as exact rational numbers. -/
inductive Exact : (α : Type) → Scalar α → Prop
  | rational : Exact Rat inferInstance

@[simp] theorem isFinite_rat (q : Rat) : isFinite q = true := rfl

@[simp] theorem isNaN_rat (q : Rat) : isNaN q = false := by simp [isNaN]

theorem zero_rat : (0.0 : Rat) = 0 := by norm_num

theorem one_rat : (1.0 : Rat) = 1 := by norm_num

theorem two_rat : (2.0 : Rat) = 2 := by norm_num

theorem magnitude_rat (q : Rat) : magnitude q = |q| := by
  by_cases negative : q < 0
  · simp only [magnitude, zero_rat, if_pos negative, zero_sub, abs_of_neg negative]
  · simp only [magnitude, zero_rat, if_neg negative, abs_of_nonneg (not_lt.mp negative)]

theorem lower_rat (x y : Rat) : lower x y = min x y := by
  by_cases less : y < x
  · simp only [lower, if_pos less, min_eq_right less.le]
  · simp only [lower, if_neg less, isNaN_rat, Bool.false_eq_true, if_false,
      min_eq_left (not_lt.mp less)]

theorem upper_rat (x y : Rat) : upper x y = max x y := by
  by_cases less : x < y
  · simp only [upper, if_pos less, max_eq_right less.le]
  · simp only [upper, if_neg less, isNaN_rat, Bool.false_eq_true, if_false,
      max_eq_left (not_lt.mp less)]

theorem ofNat_rat (n : Nat) : (ofNat n : Rat) = n := rfl

theorem clamp_rat {low high : Rat} (order : low ≤ high) (q : Rat) :
    clamp low high q = max low (min q high) := by
  by_cases below : q < low
  · rw [clamp, if_pos below, min_eq_left (below.le.trans order), max_eq_left below.le]
  · have inside : low ≤ q := not_lt.mp below
    by_cases above : high < q
    · rw [clamp, if_neg below, if_pos above, min_eq_right above.le, max_eq_right order]
    · rw [clamp, if_neg below, if_neg above, min_eq_left (not_lt.mp above), max_eq_right inside]

theorem before_rat (p q : Rat) : before p q = decide (p < q) := by simp [before]

theorem nearestIndex_rat (q : Rat) :
    nearestIndex q = min (Rounding.awayFromZero q).toNat largestIndex := rfl

theorem nearestByte_rat (q : Rat) :
    nearestByte q = min (Rounding.awayFromZero q).toNat 255 := rfl

end Scalar

namespace Rounding

theorem awayFromZero_of_nonneg (q : Rat) (nonneg : 0 ≤ q) : awayFromZero q = ⌊q + 1 / 2⌋ := by
  obtain ⟨num, same⟩ := Int.eq_ofNat_of_zero_le (Rat.num_nonneg.mpr nonneg)
  have den : (q.den : Rat) ≠ 0 := Nat.cast_ne_zero.mpr q.den_ne_zero
  have quotient : (num : Rat) / q.den = q := by
    conv_rhs => rw [← Rat.num_div_den q, same]
    norm_num
  have fraction : (num : Rat) / q.den + 1 / 2 =
      ((2 * num + q.den : Nat) : Rat) / ((2 * q.den : Nat) : Rat) := by
    push_cast
    field_simp
  rw [quotient] at fraction
  rw [fraction, Rat.floor_natCast_div_natCast]
  simp only [awayFromZero, halfUp, same, Int.natAbs_natCast]
  rfl

theorem awayFromZero_of_neg (q : Rat) (negative : q < 0) : awayFromZero q = -⌊-q + 1 / 2⌋ := by
  have opposite := awayFromZero_of_nonneg (-q) (by linarith)
  have num : q.num < 0 := Rat.num_neg.mpr negative
  simp only [awayFromZero, Rat.num_neg_eq_neg_num, Rat.den_neg_eq_den, Int.natAbs_neg,
    if_neg (by omega : ¬ -q.num < 0)] at opposite
  simp only [awayFromZero, if_pos num, opposite]

theorem awayFromZero_near (q : Rat) : |(awayFromZero q : Rat) - q| ≤ 1 / 2 := by
  by_cases negative : q < 0
  · rw [awayFromZero_of_neg q negative, abs_le]
    have low := Int.floor_le (-q + 1 / 2)
    have high := Int.lt_floor_add_one (-q + 1 / 2)
    push_cast
    constructor <;> linarith
  · rw [awayFromZero_of_nonneg q (not_lt.mp negative), abs_le]
    have low := Int.floor_le (q + 1 / 2)
    have high := Int.lt_floor_add_one (q + 1 / 2)
    constructor <;> linarith

/-- Were two numbers in order and their roundings not, both would be the one halfway between. -/
theorem awayFromZero_mono {p q : Rat} (le : p ≤ q) : awayFromZero p ≤ awayFromZero q := by
  by_contra above
  have apart : (awayFromZero q : Rat) + 1 ≤ awayFromZero p := by exact_mod_cast not_le.mp above
  have most := (abs_le.mp (awayFromZero_near p)).2
  have least := (abs_le.mp (awayFromZero_near q)).1
  have same : p = q := by linarith
  exact above (congrArg awayFromZero same).le

theorem awayFromZero_natCast (n : Nat) : awayFromZero (n : Rat) = n := by
  obtain ⟨least, most⟩ := abs_le.mp (awayFromZero_near n)
  have below : awayFromZero (n : Rat) < n + 1 := by
    rw [← Int.cast_lt (R := Rat)]
    push_cast
    linarith
  have above : (n : Int) - 1 < awayFromZero (n : Rat) := by
    rw [← Int.cast_lt (R := Rat)]
    push_cast
    linarith
  omega

/-- Of the whole numbers in an interval none is nearer than the rounded one, brought into it. -/
theorem awayFromZero_within (q : Rat) (low high j : Int) (above : low ≤ j) (below : j ≤ high) :
    |((max low (min (awayFromZero q) high) : Int) : Rat) - q| ≤ |(j : Rat) - q| := by
  obtain ⟨least, most⟩ := abs_le.mp (awayFromZero_near q)
  generalize awayFromZero q = r at least most ⊢
  rcases lt_trichotomy j r with less | same | more
  · -- the rounded number is at least `j + 1`, so the distance only shrinks on the way up from `j`
    have up : j ≤ max low (min r high) := by omega
    have down : max low (min r high) ≤ r := by omega
    have far : (j : Rat) + 1 ≤ r := by exact_mod_cast less
    have up' : (j : Rat) ≤ (max low (min r high) : Int) := by exact_mod_cast up
    have down' : ((max low (min r high) : Int) : Rat) ≤ r := by exact_mod_cast down
    rw [abs_le, abs_of_nonpos (by linarith : (j : Rat) - q ≤ 0)]
    constructor <;> linarith
  · have inside : max low (min r high) = j := by omega
    rw [inside]
  · have down : max low (min r high) ≤ j := by omega
    have up : r ≤ max low (min r high) := by omega
    have far : (r : Rat) + 1 ≤ j := by exact_mod_cast more
    have down' : ((max low (min r high) : Int) : Rat) ≤ j := by exact_mod_cast down
    have up' : (r : Rat) ≤ (max low (min r high) : Int) := by exact_mod_cast up
    rw [abs_le, abs_of_nonneg (by linarith : 0 ≤ (j : Rat) - q)]
    constructor <;> linarith

/-- A whole number comes out of the rounding of numbers that are not negative, and those that are do
not get above it. -/
theorem awayFromZero_natCast_add (n : Nat) (q : Rat) :
    max (n : Int) (awayFromZero (n + q)) = n + max 0 (awayFromZero q) := by
  by_cases negative : q < 0
  · have down : awayFromZero q ≤ 0 := by
      rw [awayFromZero_of_neg q negative, neg_nonpos]
      exact Int.floor_nonneg.mpr (by linarith)
    have below : awayFromZero (n + q) ≤ n := by
      by_cases under : (n : Rat) + q < 0
      · have up : awayFromZero (n + q) ≤ 0 := by
          rw [awayFromZero_of_neg _ under, neg_nonpos]
          exact Int.floor_nonneg.mpr (by linarith)
        omega
      · rw [awayFromZero_of_nonneg _ (not_lt.mp under), ← Int.lt_add_one_iff, Int.floor_lt]
        push_cast
        linarith
    omega
  · have nonneg := not_lt.mp negative
    have up : 0 ≤ awayFromZero q := by
      rw [awayFromZero_of_nonneg q nonneg]
      exact Int.floor_nonneg.mpr (by linarith)
    have shifted : awayFromZero (n + q) = n + awayFromZero q := by
      rw [awayFromZero_of_nonneg q nonneg, awayFromZero_of_nonneg _ (by positivity),
        add_assoc, Int.floor_natCast_add]
    omega

end Rounding
end LadderChart
