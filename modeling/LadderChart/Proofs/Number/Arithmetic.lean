import LadderChart.Proofs.Number.Rounded

/-!
Arithmetic on doubles. The sum, difference, product and quotient of two finite doubles are the exact
results, rounded; a result that is finite had finite operands, but for a divisor.
-/

namespace LadderChart

open Float.Model Float.Model.UnpackedFloat

theorem apply_unit (s : Sign) (n : Int) : ((s.apply n : Int) : ℚ) = unit s * n := by
  cases s <;> simp [Sign.apply, unit]

theorem unit_mul (s s' : Sign) : unit (s * s') = unit s * unit s' := by
  cases s <;> cases s' <;> simp [unit]

theorem unit_div (s s' : Sign) : unit (s / s') = unit s / unit s' := by
  cases s <;> cases s' <;> simp [unit] <;> rfl

theorem unit_neg (s : Sign) : unit (-s) = -unit s := by
  cases s <;> simp [unit]

/-- Rounding of a number with a sign. -/
theorem normalize_rounded {n exponent : Int} {zeroSign : Sign} {x : Float}
    (packed : x.toModel.unpack =
      (Float.Model.pack (UnpackedFloat.normalize .binary64 n exponent zeroSign)).unpack) :
    Rounded (n * 2 ^ exponent) x := by
  simp only [UnpackedFloat.normalize] at packed
  rcases lt_trichotomy n 0 with negative | rfl | positive
  · rw [Int.compare_eq_lt.mpr negative] at packed
    have rounded := round_rounded (by omega) packed
    have size : (((-n).toNat : Nat) : ℚ) = -n := by exact_mod_cast Int.toNat_of_nonneg (by omega)
    rw [size] at rounded
    simpa [unit] using rounded
  · rw [Int.compare_eq_eq.mpr rfl, unpack_pack_zero] at packed
    simpa [value_zero packed] using rounded_value (x := x) (by
      rw [isFinite_eq, packed]
      rfl)
  · rw [Int.compare_eq_gt.mpr positive] at packed
    have rounded := round_rounded (by omega) packed
    have size : ((n.toNat : Nat) : ℚ) = n := by exact_mod_cast Int.toNat_of_nonneg (by omega)
    rw [size] at rounded
    simpa [unit] using rounded

/-- A finite double that is packed again is itself. -/
theorem rounded_repacked {x y : Float} (finite : x.isFinite = true)
    (packed : y.toModel.unpack = (Float.Model.pack x.toModel.unpack).unpack) :
    Rounded (Scalar.value x) y := by
  have same : y.toModel.unpack = x.toModel.unpack := by
    rw [packed]
    rcases finite_cases finite with ⟨s, zero⟩ | ⟨s, m, e, pos, unpacked, canonical, most⟩
    · rw [zero, unpack_pack_zero]
    · rw [unpacked, unpack_pack s pos canonical most]
  have value : Scalar.value x = Scalar.value y := by rw [value_eq, value_eq, same]
  rw [value]
  apply rounded_value
  rw [isFinite_eq, same]
  exact finite

theorem rounded_zero {s : Sign} {x : Float}
    (packed : x.toModel.unpack = (Float.Model.pack (.zero s)).unpack) : Rounded 0 x := by
  rw [unpack_pack_zero] at packed
  rw [← value_zero packed]
  apply rounded_value
  rw [isFinite_eq, packed]
  rfl

/-- Written with a smaller exponent, a number is the same. -/
theorem apply_shifted (s : Sign) (m : Nat) {e t : Int} (le : t ≤ e) :
    ((s.apply (m <<< (e - t).toNat : Nat) : Int) : ℚ) * 2 ^ t = unit s * (m * 2 ^ e) := by
  rw [apply_unit, two_zpow_split le, Nat.shiftLeft_eq]
  push_cast
  ring

/-- The product of two significands has bits to spare, unless both numbers are at the least
exponent. -/
theorem mul_spare {m m' : Nat} {e e' : Int} (canonical : Canonical m e) (canonical' : Canonical m' e')
    (pos : 0 < m) (pos' : 0 < m') :
    e + e' ≤ max ((m * m').log2 + (e + e') - 52) (-1074) := by
  by_cases long : 2 ^ 52 ≤ m * m'
  · have bits : 52 ≤ (m * m').log2 := (Nat.le_log2 (Nat.mul_pos pos pos').ne').mpr long
    omega
  · have short : m < 2 ^ 52 := lt_of_le_of_lt (Nat.le_mul_of_pos_right m pos') (not_le.mp long)
    have short' : m' < 2 ^ 52 := lt_of_le_of_lt (Nat.le_mul_of_pos_left m' pos) (not_le.mp long)
    have least := canonical.full.resolve_left (by omega)
    have least' := canonical'.full.resolve_left (by omega)
    omega

/-- A dividend is shifted until the quotient has bits to spare, unless it is below all doubles. -/
theorem div_spare {m m' shift : Nat} {span t : Int} (pos : 0 < m) (pos' : 0 < m')
    (target : t ≤ max (m.log2 - m'.log2 + span - 53) (-1074)) (shifted : (span - t).toNat = shift) :
    t ≤ max ((m * 2 ^ shift / m').log2 + t - 52) (-1074) := by
  by_cases least : t ≤ -1074
  · omega
  · have long : 2 ^ 52 ≤ m * 2 ^ shift / m' := by
      rw [Nat.le_div_iff_mul_le pos']
      calc 2 ^ 52 * m' ≤ 2 ^ 52 * 2 ^ (m'.log2 + 1) :=
            Nat.mul_le_mul_left _ (log2_bounds m' pos').2.le
        _ = 2 ^ (52 + (m'.log2 + 1)) := by rw [← Nat.pow_add]
        _ ≤ 2 ^ (m.log2 + shift) := Nat.pow_le_pow_right two_pos (by omega)
        _ = 2 ^ m.log2 * 2 ^ shift := Nat.pow_add _ _ _
        _ ≤ m * 2 ^ shift := Nat.mul_le_mul_right _ (log2_bounds m pos).1
    have bits : 52 ≤ (m * 2 ^ shift / m').log2 :=
      (Nat.le_log2 (by omega)).mpr long
    omega

/-! ### The four operations -/

section Operations
variable {x y : Float} (finiteX : x.isFinite = true) (finiteY : y.isFinite = true)
include finiteX finiteY

theorem add_rounded : Rounded (Scalar.value x + Scalar.value y) (x + y) := by
  have packed : (x + y).toModel.unpack =
      (Float.Model.pack (UnpackedFloat.add .binary64 x.toModel.unpack y.toModel.unpack)).unpack := rfl
  rcases finite_cases finiteX with ⟨s, zeroX⟩ | ⟨s, m, e, pos, unpackedX, _⟩
  · rcases finite_cases finiteY with ⟨s', zeroY⟩ | ⟨s', m', e', pos', unpackedY, _⟩
    · rw [value_zero zeroX, value_zero zeroY, add_zero]
      rw [zeroX, zeroY, UnpackedFloat.add] at packed
      split at packed <;> exact rounded_zero packed
    · rw [value_zero zeroX, zero_add]
      rw [zeroX, unpackedY, UnpackedFloat.add, ← unpackedY] at packed
      · exact rounded_repacked finiteY packed
      all_goals simp
  · rcases finite_cases finiteY with ⟨s', zeroY⟩ | ⟨s', m', e', pos', unpackedY, _⟩
    · rw [value_zero zeroY, add_zero]
      rw [zeroY, unpackedX, UnpackedFloat.add, ← unpackedX] at packed
      · exact rounded_repacked finiteX packed
      all_goals simp
    · -- both are written with the smaller exponent, added exactly, and rounded once
      rw [unpackedX, unpackedY, UnpackedFloat.add] at packed
      have rounded := normalize_rounded packed
      rwa [Int.cast_add, add_mul, apply_shifted s m (min_le_left e e'),
        apply_shifted s' m' (min_le_right e e'), ← value_finite unpackedX,
        ← value_finite unpackedY] at rounded

theorem sub_rounded : Rounded (Scalar.value x - Scalar.value y) (x - y) := by
  have packed : (x - y).toModel.unpack =
      (Float.Model.pack (UnpackedFloat.sub .binary64 x.toModel.unpack y.toModel.unpack)).unpack := rfl
  rcases finite_cases finiteX with ⟨s, zeroX⟩ | ⟨s, m, e, pos, unpackedX, _⟩
  · rcases finite_cases finiteY with ⟨s', zeroY⟩ | ⟨s', m', e', pos', unpackedY, canonical, most⟩
    · rw [value_zero zeroX, value_zero zeroY, sub_zero]
      rw [zeroX, zeroY, UnpackedFloat.sub] at packed
      split at packed <;> exact rounded_zero packed
    · rw [value_zero zeroX, zero_sub]
      rw [zeroX, unpackedY, UnpackedFloat.sub, unpack_pack _ pos' canonical most] at packed
      have opposite : Scalar.value (x - y) = -Scalar.value y := by
        rw [value_finite packed, value_finite unpackedY, unit_neg, neg_mul]
      rw [← opposite]
      apply rounded_value
      rw [isFinite_eq, packed]
      rfl
  · rcases finite_cases finiteY with ⟨s', zeroY⟩ | ⟨s', m', e', pos', unpackedY, _⟩
    · rw [value_zero zeroY, sub_zero]
      rw [zeroY, unpackedX, UnpackedFloat.sub, ← unpackedX] at packed
      · exact rounded_repacked finiteX packed
      all_goals simp
    · rw [unpackedX, unpackedY, UnpackedFloat.sub] at packed
      have rounded := normalize_rounded packed
      rwa [Int.cast_sub, sub_mul, apply_shifted s m (min_le_left e e'),
        apply_shifted s' m' (min_le_right e e'), ← value_finite unpackedX,
        ← value_finite unpackedY] at rounded

theorem mul_rounded : Rounded (Scalar.value x * Scalar.value y) (x * y) := by
  have packed : (x * y).toModel.unpack =
      (Float.Model.pack (UnpackedFloat.mul .binary64 x.toModel.unpack y.toModel.unpack)).unpack := rfl
  rcases finite_cases finiteX with ⟨s, zeroX⟩ | ⟨s, m, e, pos, unpackedX, canonical, _⟩
  · rw [value_zero zeroX, zero_mul]
    rcases finite_cases finiteY with ⟨s', zeroY⟩ | ⟨s', m', e', pos', unpackedY, _⟩
    · rw [zeroX, zeroY] at packed
      exact rounded_zero packed
    · rw [zeroX, unpackedY] at packed
      exact rounded_zero packed
  · rcases finite_cases finiteY with ⟨s', zeroY⟩ | ⟨s', m', e', pos', unpackedY, canonical', _⟩
    · rw [value_zero zeroY, mul_zero]
      rw [unpackedX, zeroY] at packed
      exact rounded_zero packed
    · rw [unpackedX, unpackedY, UnpackedFloat.mul] at packed
      have rounded := roundWithAccuracy_rounded one_pos (standsFor_exact _)
        (mul_spare canonical canonical' pos pos') packed
      have product : Scalar.value x * Scalar.value y =
          unit (s * s') * (((m * m' : Nat) : ℚ) / (1 : Nat) * 2 ^ (e + e')) := by
        rw [value_finite unpackedX, value_finite unpackedY, unit_mul, zpow_add₀ two_ne_zero]
        push_cast
        ring
      rw [product]
      exact rounded

theorem div_rounded (nonzero : Scalar.value y ≠ 0) :
    Rounded (Scalar.value x / Scalar.value y) (x / y) := by
  have packed : (x / y).toModel.unpack =
      (Float.Model.pack (UnpackedFloat.div .binary64 x.toModel.unpack y.toModel.unpack)).unpack := rfl
  rcases finite_cases finiteY with ⟨s', zeroY⟩ | ⟨s', m', e', pos', unpackedY, _⟩
  · exact absurd (value_zero zeroY) nonzero
  · rcases finite_cases finiteX with ⟨s, zeroX⟩ | ⟨s, m, e, pos, unpackedX, _⟩
    · rw [value_zero zeroX, zero_div]
      rw [zeroX, unpackedY] at packed
      exact rounded_zero packed
    · -- the quotient of the significands comes with what its remainder says about the rest
      rw [unpackedX, unpackedY, UnpackedFloat.div, divCore] at packed
      simp only [Nat.shiftLeft_eq] at packed
      generalize target : min (e - e') (Format.binary64.targetExponent
        (totalExponent m e - totalExponent m' e')) = t at packed
      have place : t ≤ e - e' ∧ t ≤ max (m.log2 - m'.log2 + (e - e') - 53) (-1074) := by
        have least : Format.binary64.minExponent = -1074 := rfl
        simp only [Format.targetExponent, totalExponent, Format.mantissaBits, least] at target
        omega
      have rounded := roundWithAccuracy_rounded pos' (standsFor_quotient _ _ pos')
        (div_spare pos pos' place.2 rfl) packed
      have shift : (2 : ℚ) ^ e = 2 ^ (e - e' - t).toNat * 2 ^ t * 2 ^ e' := by
        rw [← two_zpow_split place.1, ← zpow_add₀ two_ne_zero, sub_add_cancel]
      have quotient : Scalar.value x / Scalar.value y =
          unit (s / s') * (((m * 2 ^ (e - e' - t).toNat : Nat) : ℚ) / m' * 2 ^ t) := by
        have power : (2 : ℚ) ^ e' ≠ 0 := by positivity
        have filled : (m' : ℚ) ≠ 0 := by exact_mod_cast pos'.ne'
        rw [value_finite unpackedX, value_finite unpackedY, unit_div, shift]
        push_cast
        field_simp
      rw [quotient]
      exact rounded

end Operations

/-! ### Operands of a finite result -/

theorem finite_repacked {x : Float} (u : UnpackedFloat)
    (packed : x.toModel.unpack = (Float.Model.pack u).unpack) (finite : x.isFinite = true) :
    u.isFinite = true := by
  rw [isFinite_eq, packed] at finite
  cases u with
  | infinity s =>
      rw [unpack_pack_infinity] at finite
      exact finite
  | notANumber => exact finite
  | zero s => rfl
  | finite s m e pos => rfl

/-! An infinite operand, or one that is no number, leaves no finite result. -/

section Operands
variable {a b : UnpackedFloat}

theorem unpacked_of_add (result : (UnpackedFloat.add .binary64 a b).isFinite = true) :
    a.isFinite = true ∧ b.isFinite = true := by
  rcases a with s | _ | s | _ <;> rcases b with s' | _ | s' | _ <;> (try cases s) <;>
    (try cases s') <;> first | exact ⟨rfl, rfl⟩ | cases result

theorem unpacked_of_sub (result : (UnpackedFloat.sub .binary64 a b).isFinite = true) :
    a.isFinite = true ∧ b.isFinite = true := by
  rcases a with s | _ | s | _ <;> rcases b with s' | _ | s' | _ <;> (try cases s) <;>
    (try cases s') <;> first | exact ⟨rfl, rfl⟩ | cases result

theorem unpacked_of_mul (result : (UnpackedFloat.mul .binary64 a b).isFinite = true) :
    a.isFinite = true ∧ b.isFinite = true := by
  rcases a with s | _ | s | _ <;> rcases b with s' | _ | s' | _ <;>
    first | exact ⟨rfl, rfl⟩ | cases result

theorem unpacked_of_div (result : (UnpackedFloat.div .binary64 a b).isFinite = true) :
    a.isFinite = true := by
  rcases a with s | _ | s | _ <;> rcases b with s' | _ | s' | _ <;>
    first | rfl | cases result

variable {x y : Float}

theorem finite_of_add (finite : (x + y).isFinite = true) :
    x.isFinite = true ∧ y.isFinite = true :=
  unpacked_of_add (finite_repacked _ rfl finite)

theorem finite_of_sub (finite : (x - y).isFinite = true) :
    x.isFinite = true ∧ y.isFinite = true :=
  unpacked_of_sub (finite_repacked _ rfl finite)

theorem finite_of_mul (finite : (x * y).isFinite = true) :
    x.isFinite = true ∧ y.isFinite = true :=
  unpacked_of_mul (finite_repacked _ rfl finite)

/-- A divisor may be infinite, and the quotient zero. -/
theorem finite_of_div (finite : (x / y).isFinite = true) : x.isFinite = true :=
  unpacked_of_div (finite_repacked _ rfl finite)

end Operands

/-! ### Whole numbers -/

/-- Below `2 ^ 53` a number is read as a word, exactly, and multiplied by one. -/
theorem float_ofNat_fast (n : Nat) (small : n < 2 ^ 53) :
    ∃ word one : Float, Float.ofNat n = word * one ∧ word.isFinite = true ∧
      Scalar.value word = n ∧ one.isFinite = true ∧ Scalar.value one = 1 := by
  have bits : n.toUInt64.toNat = n := by
    simp only [Nat.toUInt64, UInt64.toNat_ofNat']
    omega
  refine ⟨n.toUInt64.toFloat, .ofBits 0x3FF0000000000000, ?_, ?_⟩
  · change Float.ofScientific n false 0 = _
    rw [Float.ofScientific, dif_pos ⟨small, by decide⟩]
    rfl
  · have packed : n.toUInt64.toFloat.toModel.unpack =
        (Float.Model.pack (UnpackedFloat.normalize .binary64 (n.toUInt64.toNat : Nat) 0
          .positive)).unpack := rfl
    have rounded := normalize_rounded packed
    rw [bits, zpow_zero, mul_one, Int.cast_natCast] at rounded
    have size : |(n : ℚ)| = n * 2 ^ (0 : ℤ) := by rw [zpow_zero, mul_one, Nat.abs_cast]
    have inside : |(n : ℚ)| < overflow := by
      rw [Nat.abs_cast]
      have below : (n : ℚ) < 2 ^ 53 := by exact_mod_cast small
      have half : (1 : ℚ) ≤ halfUnit := one_le_pow₀ one_le_two
      have large : 2 ^ 53 * 1 ≤ overflow := by
        unfold overflow
        exact mul_le_mul (by norm_num) half zero_le_one (by norm_num)
      linarith
    exact ⟨rounded.finite_iff.mpr inside, rounded.exact inside small (by norm_num) size,
      by decide, by decide⟩

/-- From there on a number is scaled before it is rounded. -/
theorem float_ofNat_slow (n : Nat) (large : 2 ^ 53 ≤ n) : (Float.ofNat n).toModel.unpack =
    (Float.Model.pack (roundWithAccuracy .binary64 (.positive * .positive) (n * 2 ^ 53 * 1)
      (-53 + 0) .exact)).unpack := by
  have slow : Float.ofNat n = Float.ofModel (Float.Model.ofScientific n 0) := by
    change Float.ofScientific n false 0 = _
    rw [Float.ofScientific, dif_neg (by omega)]
    rfl
  have unscaled : UnpackedFloat.ofScientific .binary64 n 0 =
      mul .binary64 (.finite .positive (n * 2 ^ 53) (-53) (by omega))
        (.finite .positive 1 0 (by decide)) := by
    rw [UnpackedFloat.ofScientific, dif_neg (by omega), if_neg (by decide), if_neg,
      if_pos (by decide)]
    · simp only [Nat.shiftLeft_eq]
      rfl
    · have bias : (2 : Int) ^ 11 = 2048 := by decide
      simp only
      omega
  rw [slow]
  change (Float.Model.pack (UnpackedFloat.ofScientific .binary64 n 0)).unpack = _
  rw [unscaled]
  rfl

theorem ofNat_rounded (n : Nat) : Rounded n (Float.ofNat n) := by
  by_cases small : n < 2 ^ 53
  · obtain ⟨word, one, same, finite, value, finite', value'⟩ := float_ofNat_fast n small
    have product := mul_rounded finite finite'
    rw [value, value', mul_one, ← same] at product
    exact product
  · have filled : 0 < n := by omega
    have log : (n * 2 ^ 53 * 1).log2 = n.log2 + 53 := by
      rw [mul_one]
      exact log2_mul_two_pow n 53 filled
    have bits : 53 ≤ n.log2 := (Nat.le_log2 filled.ne').mpr (not_lt.mp small)
    have rounded := roundWithAccuracy_rounded one_pos (standsFor_exact _)
      (by rw [log]; omega) (float_ofNat_slow n (not_lt.mp small))
    have same : (n : ℚ) =
        unit (.positive * .positive) * (((n * 2 ^ 53 * 1 : Nat) : ℚ) / (1 : Nat) * 2 ^ (-53 + 0 : Int)) := by
      rw [unit_mul, unit]
      push_cast
      norm_num
      ring
    rw [same]
    exact rounded

end LadderChart
