import LadderChart.Number.Rounding
import LadderChart.Proofs.Number.Packed

/-!
The double nearest to a fraction. The shifts by which a significand is cut to 53 bits, with a round
bit and a sticky bit, amount to one division that goes to the nearest whole number, a half to the
even neighbour. The unit of that division is the spacing of the doubles around the fraction, so no
double is nearer than the one that comes out.
-/

namespace LadderChart

open Float.Model Float.Model.UnpackedFloat

namespace Rounding

theorem halfEven_parts (num den : Nat) (pos : 0 < den) :
    (num : ℚ) / den = (num / den : Nat) + ((num % den : Nat) : ℚ) / den := by
  have filled : (den : ℚ) ≠ 0 := by exact_mod_cast pos.ne'
  have parts : (num : ℚ) = den * (num / den : Nat) + (num % den : Nat) := by
    exact_mod_cast (Nat.div_add_mod num den).symm
  rw [div_eq_iff filled, add_mul, div_mul_cancel₀ _ filled]
  linarith

theorem halfEven_rest (num den : Nat) (pos : 0 < den) :
    (0 : ℚ) ≤ ((num % den : Nat) : ℚ) / den ∧ ((num % den : Nat) : ℚ) / den < 1 := by
  have positive : (0 : ℚ) < den := by exact_mod_cast pos
  refine ⟨by positivity, ?_⟩
  rw [div_lt_one positive]
  exact_mod_cast Nat.mod_lt num pos

theorem halfEven_near (num den : Nat) (pos : 0 < den) :
    |(halfEven num den : ℚ) - num / den| ≤ 1 / 2 := by
  have positive : (0 : ℚ) < den := by exact_mod_cast pos
  obtain ⟨rest, small⟩ := halfEven_rest num den pos
  rw [halfEven_parts num den pos, abs_le]
  rcases halfEven_cases num den with ⟨same, near⟩ | ⟨same, near⟩
  · have half : ((num % den : Nat) : ℚ) / den ≤ 1 / 2 := by
      rw [div_le_div_iff₀ positive two_pos]
      exact_mod_cast (by omega : num % den * 2 ≤ 1 * den)
    rw [same]
    constructor <;> linarith
  · have half : (1 / 2 : ℚ) ≤ ((num % den : Nat) : ℚ) / den := by
      rw [div_le_div_iff₀ two_pos positive]
      exact_mod_cast (by omega : 1 * den ≤ num % den * 2)
    rw [same]
    push_cast
    constructor <;> linarith

theorem halfEven_tie (num den : Nat) (pos : 0 < den)
    (tie : |(halfEven num den : ℚ) - num / den| = 1 / 2) : halfEven num den % 2 = 0 := by
  have positive : (0 : ℚ) < den := by exact_mod_cast pos
  apply halfEven_half
  have half : ((num % den : Nat) : ℚ) / den = 1 / 2 := by
    rw [halfEven_parts num den pos] at tie
    obtain ⟨rest, small⟩ := halfEven_rest num den pos
    rcases halfEven_cases num den with ⟨same, _⟩ | ⟨same, _⟩
    · rw [same, sub_add_cancel_left, abs_neg, abs_of_nonneg rest] at tie
      exact tie
    · rw [same] at tie
      push_cast at tie
      rw [add_sub_add_left_eq_sub, abs_of_pos (by linarith)] at tie
      linarith
  rw [div_eq_div_iff positive.ne' two_ne_zero] at half
  have whole : num % den * 2 = 1 * den := by exact_mod_cast half
  omega

/-- What is within a half of a whole number is no nearer to another. -/
theorem near_whole {r : ℤ} {y : ℚ} (near : |(r : ℚ) - y| ≤ 1 / 2) (k : ℤ) :
    |(r : ℚ) - y| ≤ |(k : ℚ) - y| := by
  by_cases same : k = r
  · rw [same]
  · have apart : (1 : ℚ) ≤ |(k : ℚ) - r| := by
      exact_mod_cast Int.one_le_abs (sub_ne_zero.mpr same)
    have between : |(k : ℚ) - r| ≤ |(k : ℚ) - y| + |y - r| := abs_sub_le _ _ _
    rw [abs_sub_comm y r] at between
    linarith

end Rounding

/-! ### Shifts -/

/-- The extended significand stands for a fraction: its whole part, whether the rest is at least a
half, and whether there is more than that. -/
structure StandsFor (em : ExtendedMantissa) (num den : Nat) : Prop where
  whole : em.mantissa = num / den
  half : em.roundBit = decide (den ≤ 2 * (num % den))
  more : em.stickyBit = decide (2 * (num % den) ≠ 0 ∧ 2 * (num % den) ≠ den)

theorem StandsFor.rounded {em : ExtendedMantissa} {num den : Nat} (stands : StandsFor em num den)
    (pos : 0 < den) : em.roundedMantissa = Rounding.halfEven num den := by
  obtain ⟨mantissa, round, sticky⟩ := em
  obtain ⟨whole, half, more⟩ := stands
  simp only at whole half more
  have bound := Nat.mod_lt num pos
  simp only [ExtendedMantissa.roundedMantissa, Rounding.halfEven, ← whole]
  cases round with
  | false =>
      have below : 2 * (num % den) < den := by simpa using half
      rw [if_pos below]
      cases sticky <;> rfl
  | true =>
      -- the rest is a half or more, and the sticky bit says which
      have reached : den ≤ 2 * (num % den) := by simpa using half
      rw [if_neg (by omega)]
      cases sticky with
      | false =>
          have tie : ¬ den < 2 * (num % den) := by
            have either : ¬ (2 * (num % den) ≠ 0 ∧ 2 * (num % den) ≠ den) := by simpa using more
            omega
          rw [if_neg tie]
          simp only [ExtendedMantissa.accuracy, Accuracy.roundToNearestEven]
          split <;> omega
      | true =>
          have past : den < 2 * (num % den) := by
            have both : 2 * (num % den) ≠ 0 ∧ 2 * (num % den) ≠ den := by simpa using more
            omega
          rw [if_pos past]
          rfl

theorem StandsFor.shift {em : ExtendedMantissa} {num den : Nat} (stands : StandsFor em num den)
    (pos : 0 < den) : StandsFor em.shiftRightOne num (den * 2) := by
  -- the bit that is shifted out is the lowest of the whole part
  have rest : num % (den * 2) = num % den + den * (num / den % 2) := Nat.mod_mul
  have bound := Nat.mod_lt num pos
  obtain ⟨whole, half, more⟩ := stands
  have parity : num / den % 2 = 0 ∨ num / den % 2 = 1 := by omega
  constructor
  · simp only [ExtendedMantissa.shiftRightOne, whole, Nat.div_div_eq_div_mul]
  · simp only [ExtendedMantissa.shiftRightOne, whole, rest]
    rcases parity with even | odd
    · simp [even]; omega
    · simp [odd]; omega
  · simp only [ExtendedMantissa.shiftRightOne, half, more, rest]
    rcases parity with even | odd
    · rw [even, Bool.eq_iff_iff]; simp; omega
    · rw [odd, Bool.eq_iff_iff]; simp; omega

theorem StandsFor.shifts {em : ExtendedMantissa} {num den : Nat} (stands : StandsFor em num den)
    (pos : 0 < den) (shift : Nat) : StandsFor (em >>> shift) num (den * 2 ^ shift) := by
  induction shift with
  | zero =>
      rw [pow_zero, mul_one]
      exact stands
  | succ shift ih =>
      rw [pow_succ, ← mul_assoc]
      exact ih.shift (Nat.mul_pos pos (Nat.two_pow_pos shift))

theorem standsFor_exact (n : Nat) : StandsFor (.ofMantissaAndAccuracy n .exact) n 1 := by
  constructor <;> simp [ExtendedMantissa.ofMantissaAndAccuracy, Nat.mod_one]

/-- A quotient with what the rest says about it. -/
theorem standsFor_quotient (num den : Nat) (pos : 0 < den) :
    StandsFor (.ofMantissaAndAccuracy (num / den) (accuracyOfFraction (num % den) den)) num den := by
  have bound := Nat.mod_lt num pos
  by_cases exact : num % den = 0
  · simp only [accuracyOfFraction, exact, if_true, ExtendedMantissa.ofMantissaAndAccuracy]
    constructor <;> simp [exact, pos.ne']
  · simp only [accuracyOfFraction, if_neg exact, ExtendedMantissa.ofMantissaAndAccuracy]
    rcases lt_trichotomy (2 * (num % den)) den with less | half | more
    · rw [Nat.compare_eq_lt.mpr less]
      constructor <;> simp <;> omega
    · rw [Nat.compare_eq_eq.mpr half]
      constructor <;> simp <;> omega
    · rw [Nat.compare_eq_gt.mpr more]
      constructor <;> simp <;> omega

/-! ### Rounding to 53 bits -/

/-- A number in units of a power of two, rounded. The unit is the spacing of doubles around it. -/
structure Cut (q : ℚ) (t : ℤ) (r : ℕ) : Prop where
  nonneg : 0 ≤ q
  least : -1074 ≤ t
  near : |(r : ℚ) - q / 2 ^ t| ≤ 1 / 2
  tie : |(r : ℚ) - q / 2 ^ t| = 1 / 2 → r % 2 = 0
  below : q < 2 ^ 53 * 2 ^ t
  full : 2 ^ 52 * 2 ^ t ≤ q ∨ t = -1074

theorem two_zpow_split {t e : ℤ} (le : t ≤ e) : (2 : ℚ) ^ e = 2 ^ (e - t).toNat * 2 ^ t := by
  rw [← zpow_natCast, ← zpow_add₀ two_ne_zero]
  congr 1
  omega

theorem log2_bounds (n : Nat) (pos : 0 < n) : 2 ^ n.log2 ≤ n ∧ n < 2 ^ (n.log2 + 1) :=
  (Nat.log2_eq_iff (Nat.pos_iff_ne_zero.mp pos)).mp rfl

theorem log2_mul_two_pow (n k : Nat) (pos : 0 < n) : (n * 2 ^ k).log2 = n.log2 + k := by
  obtain ⟨low, high⟩ := log2_bounds n pos
  have filled : n * 2 ^ k ≠ 0 := Nat.mul_ne_zero (Nat.pos_iff_ne_zero.mp pos) (by simp)
  apply (Nat.log2_eq_iff filled).mpr
  constructor
  · rw [Nat.pow_add]
    exact Nat.mul_le_mul_right _ low
  · rw [show n.log2 + k + 1 = n.log2 + 1 + k by omega, Nat.pow_add]
    exact Nat.mul_lt_mul_of_pos_right high (Nat.two_pow_pos k)

theorem target_eq (mantissa : Nat) (exponent : Int) :
    Format.binary64.targetExponent (totalExponent mantissa exponent) =
      max (mantissa.log2 + exponent - 52) (-1074) := by
  have least : Format.binary64.minExponent = -1074 := rfl
  simp only [Format.targetExponent, totalExponent, Format.mantissaBits, least]
  omega

section Cutting
variable (s : Sign) (mantissa : Nat) (exponent : Int) (accuracy : Accuracy) {num den : Nat}
  (pos : 0 < den) (stands : StandsFor (.ofMantissaAndAccuracy mantissa accuracy) num den)
  {t : Int} (target : max (mantissa.log2 + exponent - 52) (-1074) = t) (spare : exponent ≤ t)
include pos stands target spare

theorem cut_quotient : Cut (num / den * 2 ^ exponent) t
    (Rounding.halfEven num (den * 2 ^ (t - exponent).toNat)) := by
  have positive : (0 : ℚ) < den := by exact_mod_cast pos
  have units : 0 < den * 2 ^ (t - exponent).toNat := Nat.mul_pos pos (Nat.two_pow_pos _)
  have whole : mantissa = num / den := by
    have same := stands.whole
    cases accuracy with
    | exact => exact same
    | inexact order => cases order <;> exact same
  have scaled : (num : ℚ) / den * 2 ^ exponent / 2 ^ t =
      num / (den * 2 ^ (t - exponent).toNat : Nat) := by
    rw [two_zpow_split spare]
    push_cast
    field_simp
  refine ⟨by positivity, by omega, ?_, ?_, ?_, ?_⟩
  · rw [scaled]
    exact Rounding.halfEven_near _ _ units
  · rw [scaled]
    exact Rounding.halfEven_tie _ _ units
  -- as many bits before the point as the mantissa has, so fewer than 2 ^ 53 units
  · have above : (num : ℚ) / den < 2 ^ (mantissa.log2 + 1) := by
      rw [div_lt_iff₀ positive]
      have bits : mantissa < 2 ^ (mantissa.log2 + 1) := Nat.lt_log2_self
      rw [whole] at bits ⊢
      exact_mod_cast (Nat.div_lt_iff_lt_mul pos).mp bits
    calc (num : ℚ) / den * 2 ^ exponent
        < 2 ^ (mantissa.log2 + 1) * 2 ^ exponent := by gcongr
      _ = 2 ^ ((mantissa.log2 + 1 : Nat) + exponent) := by
          rw [zpow_add₀ two_ne_zero, zpow_natCast]
      _ ≤ 2 ^ ((53 : Nat) + t) := zpow_le_zpow_right₀ one_le_two (by push_cast; omega)
      _ = 2 ^ 53 * 2 ^ t := by rw [zpow_add₀ two_ne_zero, zpow_natCast]
  · by_cases least : t = -1074
    · exact .inr least
    · left
      -- above the least exponent the unit was chosen so that all 53 bits are filled
      have bits : 52 ≤ mantissa.log2 := by omega
      have filled : mantissa ≠ 0 := by
        rintro rfl
        simp at bits
      have below : (2 : ℚ) ^ mantissa.log2 ≤ num / den := by
        rw [le_div_iff₀ positive]
        have size := Nat.log2_self_le filled
        rw [whole] at size ⊢
        exact_mod_cast (Nat.le_div_iff_mul_le pos).mp size
      calc (2 : ℚ) ^ 52 * 2 ^ t = 2 ^ ((52 : Nat) + t) := by
            rw [zpow_add₀ two_ne_zero, zpow_natCast]
        _ = 2 ^ ((mantissa.log2 : Int) + exponent) := by
            congr 1
            push_cast
            omega
        _ = 2 ^ mantissa.log2 * 2 ^ exponent := by rw [zpow_add₀ two_ne_zero, zpow_natCast]
        _ ≤ num / den * 2 ^ exponent := by gcongr

/-- Rounding may carry into one bit more, and then the exponent takes it. -/
theorem roundWithAccuracy_cases {r : Nat}
    (rounded : Rounding.halfEven num (den * 2 ^ (t - exponent).toNat) = r) (bits : r ≤ 2 ^ 53) :
    (r = 0 ∧ roundWithAccuracy .binary64 s mantissa exponent accuracy = .zero s) ∨
    (∃ filled : 0 < r, r < 2 ^ 53 ∧
      roundWithAccuracy .binary64 s mantissa exponent accuracy = .finite s r t filled) ∨
    (r = 2 ^ 53 ∧ roundWithAccuracy .binary64 s mantissa exponent accuracy =
      .finite s (2 ^ 52) (t + 1) (by decide)) := by
  have units : 0 < den * 2 ^ (t - exponent).toNat := Nat.mul_pos pos (Nat.two_pow_pos _)
  have reached : exponent + (t - exponent).toNat = t := by omega
  have first : shiftToTargetExponent .binary64 mantissa exponent accuracy =
      (ExtendedMantissa.ofMantissaAndAccuracy mantissa accuracy >>> (t - exponent).toNat, t) := by
    simp only [shiftToTargetExponent, shiftToExponent, target_eq, target, reached]
  have cut := (stands.shifts pos (t - exponent).toNat).rounded units
  rw [rounded] at cut
  -- after the first rounding the same is done once more, to what came out
  have again : ∀ shift : Nat, max ((r.log2 : Int) + t - 52) (-1074) = t + shift ∨
      shift = 0 ∧ (r.log2 : Int) + t - 52 ≤ t → shiftToTargetExponent .binary64 r t .exact =
        (ExtendedMantissa.ofMantissaAndAccuracy r .exact >>> shift, t + shift) := by
    intro shift place
    have amount : (max ((r.log2 : Int) + t - 52) (-1074) - t).toNat = shift := by omega
    simp only [shiftToTargetExponent, shiftToExponent, target_eq, amount]
  by_cases full : r = 2 ^ 53
  · -- the bit that is cut off after the carry is zero
    right
    right
    refine ⟨full, ?_⟩
    have log : r.log2 = 53 := by
      rw [full]
      exact Nat.log2_two_pow
    have half : (ExtendedMantissa.ofMantissaAndAccuracy r .exact >>> 1).mantissa = 2 ^ 52 := by
      have whole := ((standsFor_exact r).shifts one_pos 1).whole
      rw [whole, full]
      rfl
    have second := again 1 (.inl (by push_cast; omega))
    simp only [roundWithAccuracy, first, cut, second, half]
    rfl
  · have log : r.log2 ≤ 52 := by
      by_cases zero : r = 0
      · simp [zero]
      · have small := (Nat.log2_lt zero).mpr (by omega : r < 2 ^ 53)
        omega
    have second := again 0 (.inr ⟨rfl, by omega⟩)
    have same : (ExtendedMantissa.ofMantissaAndAccuracy r .exact >>> 0).mantissa = r := rfl
    by_cases zero : r = 0
    · left
      refine ⟨zero, ?_⟩
      simp only [roundWithAccuracy, first, cut, second, same, dif_pos zero]
    · right
      left
      refine ⟨by omega, by omega, ?_⟩
      simp only [roundWithAccuracy, first, cut, second, same, dif_neg zero]
      simp

end Cutting

namespace Cut
variable {q : ℚ} {t : ℤ} {r : ℕ} (cut : Cut q t r)
include cut

theorem quotient_below : q / 2 ^ t < 2 ^ 53 := by
  rw [div_lt_iff₀ (by positivity)]
  exact cut.below

theorem bits : r ≤ 2 ^ 53 := by
  have near := (abs_le.mp cut.near).2
  have below := cut.quotient_below
  have bound : (r : ℚ) < (2 ^ 53 + 1 : Nat) := by
    push_cast
    linarith
  have less : r < 2 ^ 53 + 1 := by exact_mod_cast bound
  omega

theorem canonical (small : r < 2 ^ 53) : Canonical r t := by
  refine ⟨small, cut.least, ?_⟩
  rcases cut.full with large | least
  · left
    have near := (abs_le.mp cut.near).1
    have above : 2 ^ 52 ≤ q / 2 ^ t := by
      rw [le_div_iff₀ (by positivity)]
      exact large
    have bound : ((2 ^ 52 - 1 : Nat) : ℚ) < r := by
      push_cast
      linarith
    have less : 2 ^ 52 - 1 < r := by exact_mod_cast bound
    omega
  · exact .inr least

end Cut

end LadderChart
