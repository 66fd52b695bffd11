import LadderChart.Number.Plain
import LadderChart.Proofs.Number.Packed

/-!
The exact value of a double. It is read off the bits, and it is the value of the number that the
double is taken apart into, sign times significand times a power of two.
-/

namespace LadderChart

open Float.Model Float.Model.UnpackedFloat

def unit : Sign → ℚ
  | .negative => -1
  | .positive => 1

/-- The exact value of a number taken apart; what is no number counts as zero. -/
def exact : UnpackedFloat → ℚ
  | .finite s m e _ => unit s * (m * 2 ^ e)
  | _ => 0

theorem Double.size_eq (d : Double) : d.size = d.significand * 2 ^ d.exponent := by
  have split : d.exponent = (d.exponent.toNat : Int) - ((-d.exponent).toNat : Int) := by omega
  rw [size, Rat.mkRat_eq_div, numerator, denominator]
  conv_rhs => rw [split]
  rw [zpow_sub₀ two_ne_zero, zpow_natCast, zpow_natCast]
  push_cast [Nat.pow_eq]
  ring

/-! ### Fields -/

section Fields
variable (b : BitVec 64)

theorem toNat_unpackMantissa : (@unpackMantissa .binary64 b).toNat = b.toNat % 2 ^ 52 := by
  simp [unpackMantissa]

theorem toNat_unpackExponent : (@unpackExponent .binary64 b).toNat = b.toNat / 2 ^ 52 % 2 ^ 11 := by
  simp [unpackExponent, Nat.shiftRight_eq_div_pow]

theorem unpackSign_eq : Sign.ofBitVec (@unpackSign .binary64 b) =
    if 2 ^ 63 ≤ b.toNat then .negative else .positive := by
  have bound := b.isLt
  have bit : (@unpackSign .binary64 b).toNat = b.toNat / 2 ^ 63 % 2 := by
    simp [unpackSign, Nat.shiftRight_eq_div_pow]
  unfold Sign.ofBitVec
  split
  · rename_i zero
    rw [zero] at bit
    have none : (0#1).toNat = 0 := rfl
    rw [if_neg (by omega)]
  · rename_i one
    have some : (@unpackSign .binary64 b).toNat ≠ 0 := fun zero => one (BitVec.eq_of_toNat_eq zero)
    rw [if_pos (by omega)]

end Fields

section OfFloat
variable {x : Float}

theorem ofFloat_finite {s : Sign} {m : Nat} {e : Int} {pos : 0 < m}
    (unpacked : x.toModel.unpack = .finite s m e pos) :
    (Double.ofFloat x).significand = m ∧ (Double.ofFloat x).exponent = e ∧
      ((Double.ofFloat x).negative = true ↔ s = .negative) := by
  have bits : x.toBits.toNat = x.toModel.toBits.toBitVec.toNat := rfl
  have fraction := toNat_unpackMantissa x.toModel.toBits.toBitVec
  have field := toNat_unpackExponent x.toModel.toBits.toBitVec
  have bias : ((Format.binary64.exponentBias : Nat) : Int) = 1023 := rfl
  simp only [Double.ofFloat, bits, Nat.pow_eq, ← fraction, ← field]
  simp only [Float.Model.unpack, UnpackedFloat.unpack, unpackSign_eq] at unpacked
  split at unpacked
  · split at unpacked <;> cases unpacked
  · split at unpacked
    · rename_i least
      have none : (@unpackExponent .binary64 x.toModel.toBits.toBitVec).toNat = 0 := by
        rw [least]
        rfl
      split at unpacked
      · cases unpacked
      · injection unpacked with sign significand exponent
        rw [none, if_pos rfl, ← sign]
        refine ⟨significand, by omega, ?_⟩
        split <;> simp_all
    · rename_i normal
      have some : (@unpackExponent .binary64 x.toModel.toBits.toBitVec).toNat ≠ 0 := by
        intro none
        exact normal (BitVec.eq_of_toNat_eq none)
      injection unpacked with sign significand exponent
      rw [toNat_leading_one] at significand
      rw [if_neg some, ← sign]
      refine ⟨significand, by omega, ?_⟩
      split <;> simp_all

theorem ofFloat_zero {s : Sign} (unpacked : x.toModel.unpack = .zero s) :
    (Double.ofFloat x).significand = 0 := by
  have bits : x.toBits.toNat = x.toModel.toBits.toBitVec.toNat := rfl
  have fraction := toNat_unpackMantissa x.toModel.toBits.toBitVec
  have field := toNat_unpackExponent x.toModel.toBits.toBitVec
  simp only [Double.ofFloat, bits, Nat.pow_eq, ← fraction, ← field]
  simp only [Float.Model.unpack, UnpackedFloat.unpack] at unpacked
  split at unpacked
  · split at unpacked <;> cases unpacked
  · split at unpacked
    · rename_i least
      split at unpacked
      · rename_i empty
        rw [least, empty]
        rfl
      · cases unpacked
    · cases unpacked

end OfFloat

/-! ### Values -/

theorem isFinite_eq (x : Float) : x.isFinite = x.toModel.unpack.isFinite := rfl

theorem value_eq (x : Float) : Scalar.value x = exact x.toModel.unpack := by
  change (if x.toModel.unpack.isFinite then (Double.ofFloat x).value else 0) = _
  cases unpacked : x.toModel.unpack with
  | infinity s => rfl
  | notANumber => rfl
  | zero s =>
      have none := ofFloat_zero unpacked
      simp [UnpackedFloat.isFinite, Double.value, Double.size_eq, none, exact]
  | finite s m e pos =>
      obtain ⟨significand, exponent, negative⟩ := ofFloat_finite unpacked
      simp only [UnpackedFloat.isFinite, if_true, Double.value, Double.size_eq, significand,
        exponent, exact]
      cases s <;> simp [unit, negative]

theorem finite_cases {x : Float} (finite : x.isFinite = true) :
    (∃ s, x.toModel.unpack = .zero s) ∨
      ∃ s m e pos, x.toModel.unpack = .finite s m e pos ∧ Canonical m e ∧ e ≤ 971 := by
  rw [isFinite_eq] at finite
  cases unpacked : x.toModel.unpack with
  | infinity s => simp [unpacked, UnpackedFloat.isFinite] at finite
  | notANumber => simp [unpacked, UnpackedFloat.isFinite] at finite
  | zero s => exact .inl ⟨s, rfl⟩
  | finite s m e pos =>
      obtain ⟨canonical, most⟩ := canonical_unpack _ unpacked
      exact .inr ⟨s, m, e, pos, rfl, canonical, most⟩

theorem abs_unit_mul (s : Sign) (q : ℚ) : |unit s * q| = |q| := by
  cases s <;> simp [unit]

theorem unit_mul_self (s : Sign) (q : ℚ) : unit s * (unit s * q) = q := by
  cases s <;> simp [unit]

theorem value_zero {x : Float} {s : Sign} (unpacked : x.toModel.unpack = .zero s) :
    Scalar.value x = 0 := by
  rw [value_eq, unpacked]
  rfl

theorem value_finite {x : Float} {s : Sign} {m : Nat} {e : Int} {pos : 0 < m}
    (unpacked : x.toModel.unpack = .finite s m e pos) :
    Scalar.value x = unit s * (m * 2 ^ e) := by
  rw [value_eq, unpacked]
  rfl

/-- The size of a finite double has a significand of 53 bits and an exponent in bounds. -/
theorem value_size {x : Float} (finite : x.isFinite = true) :
    ∃ (m : ℕ) (e : ℤ), m < 2 ^ 53 ∧ -1074 ≤ e ∧ e ≤ 971 ∧ |Scalar.value x| = m * 2 ^ e := by
  rcases finite_cases finite with ⟨s, unpacked⟩ | ⟨s, m, e, pos, unpacked, canonical, most⟩
  · exact ⟨0, 0, by norm_num, by norm_num, by norm_num, by simp [value_zero unpacked]⟩
  · refine ⟨m, e, canonical.bits, canonical.least, most, ?_⟩
    rw [value_finite unpacked, abs_unit_mul, abs_of_nonneg (by positivity)]

end LadderChart
