import LadderChart.Json.Fields
import LadderChart.Proofs.Number.Within

/-!
Doubles of JSON text. Whatever a literal spells, what is read from it is finite: a power of ten is a
divisor of at least one, and a product that is too large is refused.
-/

namespace LadderChart

open Float.Model Float.Model.UnpackedFloat

theorem float_neg_finite {x : Float} (finite : x.isFinite = true) : (-x).isFinite = true := by
  have packed : (-x).toModel.unpack = (Float.Model.pack x.toModel.unpack.neg).unpack := rfl
  rw [isFinite_eq, packed]
  rcases finite_cases finite with ⟨s, zero⟩ | ⟨s, m, e, pos, unpacked, canonical, most⟩
  · rw [zero, UnpackedFloat.neg, unpack_pack_zero]
    rfl
  · rw [unpacked, UnpackedFloat.neg, unpack_pack (-s) pos canonical most]
    rfl

/-- Rounding ends at infinity or at a finite double. -/
theorem Rounded.finite_of_not_inf {q : ℚ} {x : Float} (rounded : Rounded q x)
    (bounded : x.isInf = false) : x.isFinite = true := by
  have unpacked : x.isInf = x.toModel.unpack.isInf := rfl
  rw [rounded.finite_iff]
  by_contra past
  rcases le_abs.mp (not_lt.mp past) with large | small
  · rw [unpacked, rounded.above large] at bounded
    cases bounded
  · rw [unpacked, rounded.below (by linarith)] at bounded
    cases bounded

namespace Json.Literal

/-! ### Powers of ten -/

/-- From `10 ^ 23` on powers of ten are rounded once, as the exact integers. -/
theorem powerOfTen_rounded (n : Nat) (large : 22 < n) (most : n ≤ 308) :
    Rounded ((10 ^ n : Nat) : ℚ) (powerOfTen n) := by
  have slow : powerOfTen n = Float.ofModel (Float.Model.ofScientific 1 n) := by
    rw [powerOfTen, Float.ofScientific, dif_neg (by omega)]
    rfl
  -- the literal is computed as 2 ^ 53 times the power, and scaled back before the one rounding
  have unscaled : UnpackedFloat.ofScientific .binary64 1 n =
      mul .binary64 (.finite .positive (1 <<< 53) (-53) (by decide))
        (.finite .positive (10 ^ n) 0 (by positivity)) := by
    have exponent : (n : Int).toNat = n := by omega
    have bias : (2 : Int) ^ 11 = 2048 := by decide
    rw [UnpackedFloat.ofScientific, dif_neg (by decide), if_neg, if_neg, if_pos (by omega)]
    · simp only [exponent]
      rfl
    · simp only
      omega
    · simp only
      omega
  have unpacked : (powerOfTen n).toModel.unpack = (Float.Model.pack (roundWithAccuracy .binary64
      (.positive * .positive) (1 <<< 53 * 10 ^ n) (-53 + 0) .exact)).unpack := by
    rw [slow]
    change (Float.Model.pack (UnpackedFloat.ofScientific .binary64 1 n)).unpack = _
    rw [unscaled]
    rfl
  have shift : 1 <<< 53 * 10 ^ n = 10 ^ n * 2 ^ 53 := by
    rw [Nat.shiftLeft_eq, one_mul, mul_comm]
  have filled : 0 < 10 ^ n := by positivity
  have long : 2 ^ 53 ≤ 10 ^ n :=
    calc 2 ^ 53 ≤ 10 ^ 23 := by norm_num
      _ ≤ 10 ^ n := Nat.pow_le_pow_right (by norm_num) large
  have bits : 53 ≤ (10 ^ n).log2 := (Nat.le_log2 filled.ne').mpr long
  have log := log2_mul_two_pow (10 ^ n) 53 filled
  rw [shift] at unpacked
  have rounded := roundWithAccuracy_rounded one_pos (standsFor_exact _)
    (by rw [log]; push_cast; omega) unpacked
  have same : ((10 ^ n : Nat) : ℚ) = unit (.positive * .positive) *
      (((10 ^ n * 2 ^ 53 : Nat) : ℚ) / (1 : Nat) * 2 ^ (-53 + 0 : Int)) := by
    rw [unit_mul, unit]
    push_cast
    norm_num
    ring
  rw [same]
  exact rounded

theorem powerOfTen_small :
    ∀ n < 23, (powerOfTen n).isFinite = true ∧ (1.0 : Float) ≤ powerOfTen n := by
  decide

theorem largest_power : (10 : ℚ) ^ 308 < overflow := by
  have below : 10 ^ 308 < 18014398509481983 * 2 ^ 970 := by decide +kernel
  have units : (2 : ℚ) ^ 54 - 1 = 18014398509481983 := by norm_num
  have cast := Nat.cast_lt (α := ℚ).mpr below
  rw [Nat.cast_mul, Nat.cast_pow, Nat.cast_pow, Nat.cast_ofNat, Nat.cast_ofNat, Nat.cast_ofNat]
    at cast
  rw [overflow, halfUnit, units]
  exact cast

theorem powerOfTen_within (n : Nat) (most : n ≤ 308) :
    (powerOfTen n).isFinite = true ∧ 1 ≤ Scalar.value (powerOfTen n) := by
  have finiteOne : (1.0 : Float).isFinite = true := by decide
  by_cases small : n < 23
  · obtain ⟨finite, least⟩ := powerOfTen_small n small
    rw [float_le_iff_value finiteOne finite, value_float_one] at least
    exact ⟨finite, least⟩
  · have rounded := powerOfTen_rounded n (by omega) most
    have size : |((10 ^ n : Nat) : ℚ)| = 10 ^ n := by simp
    have inside : |((10 ^ n : Nat) : ℚ)| < overflow := by
      rw [size]
      calc (10 : ℚ) ^ n ≤ 10 ^ 308 := pow_le_pow_right₀ (by norm_num) most
        _ < overflow := largest_power
    have least := rounded.ge_of_ge inside finiteOne (by
      rw [value_float_one]
      exact_mod_cast Nat.one_le_pow n 10 (by norm_num))
    rw [value_float_one] at least
    exact ⟨rounded.finite_iff.mpr inside, least⟩

/-! ### Reading -/

theorem div_powerOfTen_finite {x : Float} (finite : x.isFinite = true) (n : Nat) (most : n ≤ 308) :
    (x / powerOfTen n).isFinite = true := by
  obtain ⟨finitePower, least⟩ := powerOfTen_within n most
  have rounded := div_rounded finite finitePower (by linarith)
  rw [rounded.finite_iff, abs_div, abs_of_pos (by linarith : 0 < Scalar.value (powerOfTen n))]
  exact (div_le_self (abs_nonneg _) least).trans_lt (value_below finite)

theorem scale_near (steps : Nat) (x y : Float) (exponent : Int) (finite : x.isFinite = true)
    (near : exponent.natAbs ≤ 308) (scaled : scale steps x exponent = some y) :
    y.isFinite = true := by
  unfold scale at scaled
  rw [if_pos near] at scaled
  split at scaled
  · simp only at scaled
    split at scaled
    · cases scaled
    · rename_i bounded
      cases scaled
      exact (mul_rounded finite (powerOfTen_within _ near).1).finite_of_not_inf
        (Bool.eq_false_iff.mpr bounded)
  · cases scaled
    exact div_powerOfTen_finite finite _ near

theorem scale_finite (steps : Nat) (x y : Float) (exponent : Int) (finite : x.isFinite = true)
    (scaled : scale steps x exponent = some y) : y.isFinite = true := by
  induction steps generalizing x exponent with
  | zero =>
      by_cases near : exponent.natAbs ≤ 308
      · exact scale_near 0 x y exponent finite near scaled
      · rw [scale, if_neg near] at scaled
        split at scaled
        · cases scaled
          exact finite
        · split at scaled
          · cases scaled
          · cases scaled
            exact finite_float_zero
  | succ steps ih =>
      by_cases near : exponent.natAbs ≤ 308
      · exact scale_near (steps + 1) x y exponent finite near scaled
      · rw [scale, if_neg near] at scaled
        split at scaled
        · cases scaled
          exact finite
        · split at scaled
          · cases scaled
          · exact ih _ _ (div_powerOfTen_finite finite 308 (le_refl _)) scaled

theorem take_word (word : Nat) (digits : List Digit) (fits : word ≤ largestWord) :
    (take word digits).1 ≤ largestWord := by
  induction digits generalizing word with
  | nil => exact fits
  | cons d digits ih =>
      rw [take]
      split
      · rename_i room
        exact ih _ room
      · exact fits

theorem double?_finite (l : Literal) (x : Float) (read : l.double? = some x) :
    x.isFinite = true := by
  obtain ⟨size, sized, signed⟩ := Option.map_eq_some_iff.mp read
  have fits : (take (take 0 l.whole).1 l.fraction).1 ≤ largestWord :=
    take_word _ _ (take_word 0 _ (Nat.zero_le _))
  have finite := scale_finite 3 _ size _ (float_ofNat_finite _ fits) sized
  subst signed
  split
  · exact float_neg_finite finite
  · exact finite

/-- A double that was written is read as itself. -/
def ReadsBack (x : Float) : Prop := ∀ l, ofDouble? x = some l → l.double? = some x

instance (x : Float) : Decidable (ReadsBack x) :=
  decidable_of_iff (∀ l ∈ ofDouble? x, l.double? = some x) Iff.rfl

end Json.Literal
end LadderChart
