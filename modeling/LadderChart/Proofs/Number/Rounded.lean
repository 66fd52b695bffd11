import LadderChart.Proofs.Number.Nearest
import LadderChart.Proofs.Number.Value

/-!
Arithmetic on doubles as rounding. The sum, difference, product and quotient of two finite doubles
are the exact results, rounded: to a finite double than which none is nearer, or, from half a unit
past the largest double on, to infinity.
-/

namespace LadderChart

open Float.Model Float.Model.UnpackedFloat

def halfUnit : ℚ := 2 ^ 970

/-- Half a unit past the largest double. -/
def overflow : ℚ := (2 ^ 54 - 1) * halfUnit

theorem halfUnit_pos : 0 < halfUnit := by
  unfold halfUnit
  positivity

theorem two_zpow_add (n : ℕ) : (2 : ℚ) ^ ((970 : ℤ) + n) = 2 ^ n * halfUnit := by
  rw [zpow_add₀ two_ne_zero, zpow_natCast, mul_comm]
  rfl

/-- A double is the rounding of a rational number: the cut of its size, with its sign; past the
overflow it is infinite. -/
structure Rounded (q : ℚ) (x : Float) : Prop where
  within : |q| < overflow → x.isFinite = true ∧
    ∃ s t r, q = unit s * |q| ∧ Cut |q| t r ∧ Scalar.value x = unit s * (r * 2 ^ t)
  above : overflow ≤ q → x.toModel.unpack = .infinity .positive
  below : q ≤ -overflow → x.toModel.unpack = .infinity .negative

/-! ### Cuts -/

theorem distance_scaled {unit : ℚ} (pos : 0 < unit) (k q : ℚ) :
    |k * unit - q| = |k - q / unit| * unit := by
  rw [← abs_of_pos pos, ← abs_mul, abs_of_pos pos, sub_mul, div_mul_cancel₀ _ pos.ne']

namespace Cut
variable {q : ℚ} {t : ℤ} {r : ℕ} (cut : Cut q t r)
include cut

theorem nearest_multiple (k : ℤ) : |(r : ℚ) * 2 ^ t - q| ≤ |(k : ℚ) * 2 ^ t - q| := by
  have unit : (0 : ℚ) < 2 ^ t := by positivity
  have near : |((r : ℤ) : ℚ) - q / 2 ^ t| ≤ |(k : ℚ) - q / 2 ^ t| :=
    Rounding.near_whole (by exact_mod_cast cut.near) k
  rw [distance_scaled unit, distance_scaled unit]
  exact mul_le_mul_of_nonneg_right (by exact_mod_cast near) unit.le

/-- What has a significand and an exponent that a double could have is no nearer. -/
theorem nearest {m : ℕ} {e : ℤ} (bits : m < 2 ^ 53) (least : -1074 ≤ e) {w : ℚ}
    (size : |w| = m * 2 ^ e) : |(r : ℚ) * 2 ^ t - q| ≤ |w - q| := by
  by_cases spaced : t ≤ e
  · -- the spacing around `w` is no finer, so `w` is a multiple of the unit
    have shift := two_zpow_split spaced
    obtain ⟨k, same⟩ : ∃ k : ℤ, w = k * 2 ^ t := by
      rcases (abs_eq (by positivity)).mp size with plus | minus
      · exact ⟨m * 2 ^ (e - t).toNat, by rw [plus, shift]; push_cast; ring⟩
      · exact ⟨-(m * 2 ^ (e - t).toNat), by rw [minus, shift]; push_cast; ring⟩
    rw [same]
    exact cut.nearest_multiple k
  · -- `w` lies below the binade of `q`, whose foot is a multiple of the unit
    obtain ⟨foot, same⟩ : ∃ foot : ℤ, (foot : ℚ) = 2 ^ 52 := ⟨2 ^ 52, by norm_num⟩
    have above : (foot : ℚ) * 2 ^ t ≤ q := same ▸ cut.full.resolve_right (by omega)
    have short : |w| < foot * 2 ^ t := by
      calc |w| = m * 2 ^ e := size
        _ < 2 ^ 53 * 2 ^ e := by
            gcongr
            exact_mod_cast bits
        _ = foot * 2 ^ (e + 1) := by rw [zpow_add₀ two_ne_zero, same]; ring
        _ ≤ foot * 2 ^ t := by
            rw [same]
            gcongr
            · exact one_le_two
            · omega
    have near := cut.nearest_multiple foot
    have under := le_abs_self w
    rw [abs_of_nonpos (by linarith : (foot : ℚ) * 2 ^ t - q ≤ 0)] at near
    rw [abs_of_nonpos (by linarith : w - q ≤ 0)]
    linarith

theorem close (most : t ≤ 971) : |(r : ℚ) * 2 ^ t - q| ≤ halfUnit := by
  have unit : (0 : ℚ) < 2 ^ t := by positivity
  have largest : (2 : ℚ) ^ t ≤ 2 * halfUnit := by
    rw [← pow_one 2, ← two_zpow_add]
    exact zpow_le_zpow_right₀ one_le_two most
  calc |(r : ℚ) * 2 ^ t - q| = |(r : ℚ) - q / 2 ^ t| * 2 ^ t := distance_scaled unit r q
    _ ≤ 1 / 2 * 2 ^ t := mul_le_mul_of_nonneg_right cut.near unit.le
    _ ≤ halfUnit := by linarith

theorem inside_iff : q < overflow ↔ t ≤ 970 ∨ t = 971 ∧ r < 2 ^ 53 := by
  have below := cut.below
  have near := abs_le.mp cut.near
  have bits := cut.bits
  rcases lt_trichotomy t 971 with small | rfl | large
  · have bound : q < overflow := by
      calc q < 2 ^ 53 * 2 ^ t := below
        _ ≤ 2 ^ 53 * 2 ^ ((970 : ℤ) + (0 : ℕ)) := by
            gcongr
            · exact one_le_two
            · omega
        _ ≤ overflow := by
            rw [two_zpow_add, overflow, pow_zero, one_mul]
            exact mul_le_mul_of_nonneg_right (by norm_num) halfUnit_pos.le
    exact ⟨fun _ => .inl (by omega), fun _ => bound⟩
  · have unit : (0 : ℚ) < 2 ^ (971 : ℤ) := by positivity
    have threshold : overflow = (2 ^ 53 - 1 / 2) * 2 ^ (971 : ℤ) := by
      rw [overflow, show (971 : ℤ) = 970 + (1 : ℕ) from rfl, two_zpow_add]
      ring
    rw [threshold, ← div_lt_iff₀ unit]
    constructor
    · intro less
      have bound : (r : ℚ) < (2 ^ 53 : ℕ) := by
        push_cast
        linarith
      exact .inr ⟨rfl, by exact_mod_cast bound⟩
    · rintro (small | ⟨_, less⟩)
      · omega
      · -- a tie at the threshold goes up, to the even neighbour
        by_contra past
        have top : (r : ℚ) ≤ 2 ^ 53 - 1 := by
          have whole : (r : ℚ) ≤ ((2 ^ 53 - 1 : ℕ) : ℚ) := by exact_mod_cast (by omega)
          push_cast at whole
          linarith
        have tie : |(r : ℚ) - q / 2 ^ (971 : ℤ)| = 1 / 2 := by
          rw [abs_of_nonpos (by linarith)]
          linarith
        have even := cut.tie tie
        have equal : (r : ℚ) = ((2 ^ 53 - 1 : ℕ) : ℚ) := by
          push_cast
          linarith
        have odd : r = 2 ^ 53 - 1 := by exact_mod_cast equal
        omega
  · -- even the least number with so large a unit is past the overflow
    have foot : (2 : ℚ) ^ 52 * 2 ^ t ≤ q := cut.full.resolve_right (by omega)
    have bound : overflow ≤ q := by
      calc overflow ≤ 2 ^ 52 * 2 ^ ((970 : ℤ) + (2 : ℕ)) := by
            rw [two_zpow_add, overflow, ← mul_assoc]
            exact mul_le_mul_of_nonneg_right (by norm_num) halfUnit_pos.le
        _ ≤ 2 ^ 52 * 2 ^ t := by
            gcongr
            · exact one_le_two
            · omega
        _ ≤ q := foot
    exact ⟨fun less => absurd less (not_lt.mpr bound), fun small => by omega⟩

/-- What comes out of the bits: the rounded number, or infinity. -/
theorem outcome {s : Sign} {u : UnpackedFloat} {x : Float}
    (packed : x.toModel.unpack = (Float.Model.pack u).unpack)
    (cases : (r = 0 ∧ u = .zero s) ∨ (∃ filled : 0 < r, r < 2 ^ 53 ∧ u = .finite s r t filled) ∨
      (r = 2 ^ 53 ∧ u = .finite s (2 ^ 52) (t + 1) (by decide))) :
    (q < overflow ∧ x.isFinite = true ∧ Scalar.value x = unit s * (r * 2 ^ t)) ∨
      (overflow ≤ q ∧ x.toModel.unpack = .infinity s) := by
  have inside := cut.inside_iff
  rcases cases with ⟨none, rfl⟩ | ⟨filled, small, rfl⟩ | ⟨full, rfl⟩
  · rw [unpack_pack_zero] at packed
    have least : t ≤ 970 := by
      have canonical := (cut.canonical (by omega)).full
      omega
    refine .inl ⟨inside.mpr (.inl least), by rw [isFinite_eq, packed]; rfl, ?_⟩
    rw [value_zero packed, none]
    simp
  · by_cases most : t ≤ 971
    · rw [unpack_pack s filled (cut.canonical small) most] at packed
      refine .inl ⟨inside.mpr (by omega), by rw [isFinite_eq, packed]; rfl, value_finite packed⟩
    · rw [unpack_pack_overflow s filled (by omega)] at packed
      exact .inr ⟨not_lt.mp fun less => absurd (inside.mp less) (by omega), packed⟩
  · -- the carry makes the significand a power of two, with one more in the exponent
    by_cases most : t + 1 ≤ 971
    · have carried : Canonical (2 ^ 52) (t + 1) :=
        ⟨by decide, by have := cut.least; omega, .inl (le_refl _)⟩
      rw [unpack_pack s (by decide) carried most] at packed
      refine .inl ⟨inside.mpr (by omega), by rw [isFinite_eq, packed]; rfl, ?_⟩
      rw [value_finite packed, full, zpow_add₀ two_ne_zero]
      push_cast
      ring
    · rw [unpack_pack_overflow s (by decide) (by omega)] at packed
      exact .inr ⟨not_lt.mp fun less => absurd (inside.mp less) (by omega), packed⟩

theorem rounded {s : Sign} {x : Float}
    (outcome : (q < overflow ∧ x.isFinite = true ∧ Scalar.value x = unit s * (r * 2 ^ t)) ∨
      (overflow ≤ q ∧ x.toModel.unpack = .infinity s)) : Rounded (unit s * q) x := by
  have size : |unit s * q| = q := by rw [abs_unit_mul, abs_of_nonneg cut.nonneg]
  have infinite : overflow ≤ q → x.toModel.unpack = .infinity s := by
    intro past
    rcases outcome with ⟨less, _⟩ | ⟨_, done⟩
    · exact absurd less (not_lt.mpr past)
    · exact done
  have large : 0 < overflow := mul_pos (by norm_num) halfUnit_pos
  have nonneg := cut.nonneg
  refine ⟨?_, ?_, ?_⟩
  · rw [size]
    intro less
    rcases outcome with ⟨_, finite, value⟩ | ⟨past, _⟩
    · exact ⟨finite, s, t, r, rfl, cut, value⟩
    · exact absurd less (not_lt.mpr past)
  · intro past
    cases s with
    | positive => exact infinite (by simpa [unit] using past)
    | negative =>
        simp only [unit, neg_mul, one_mul] at past
        linarith
  · intro past
    cases s with
    | positive =>
        simp only [unit, one_mul] at past
        linarith
    | negative =>
        refine infinite ?_
        simp only [unit, neg_mul, one_mul] at past
        linarith

theorem lt_of_unit {q' : ℚ} {t' : ℤ} {r' : ℕ} (other : Cut q' t' r') (less : t < t') : q < q' := by
  have foot := other.full.resolve_right (by have := cut.least; omega)
  calc q < 2 ^ 53 * 2 ^ t := cut.below
    _ = 2 ^ 52 * 2 ^ (t + 1) := by rw [zpow_add₀ two_ne_zero]; ring
    _ ≤ 2 ^ 52 * 2 ^ t' := by
        gcongr
        · exact one_le_two
        · omega
    _ ≤ q' := foot

theorem unique {t' : ℤ} {r' : ℕ} (other : Cut q t' r') : (r : ℚ) * 2 ^ t = r' * 2 ^ t' := by
  have same : t = t' := by
    rcases lt_trichotomy t t' with less | same | more
    · exact absurd (cut.lt_of_unit other less) (lt_irrefl q)
    · exact same
    · exact absurd (other.lt_of_unit cut more) (lt_irrefl q)
  subst same
  suffices equal : r = r' by rw [equal]
  by_contra differs
  have near := abs_le.mp cut.near
  have near' := abs_le.mp other.near
  -- two whole numbers within a half are one apart, and both are even
  have step : r' = r + 1 ∨ r = r' + 1 := by
    have up : (r' : ℚ) ≤ ((r + 1 : ℕ) : ℚ) := by
      push_cast
      linarith
    have down : (r : ℚ) ≤ ((r' + 1 : ℕ) : ℚ) := by
      push_cast
      linarith
    have up' := Nat.cast_le.mp up
    have down' := Nat.cast_le.mp down
    omega
  rcases step with rfl | rfl
  · push_cast at near'
    have even := cut.tie (by rw [abs_of_nonpos (by linarith)]; linarith)
    have even' := other.tie (by push_cast; rw [abs_of_nonneg (by linarith)]; linarith)
    omega
  · push_cast at near
    have even := cut.tie (by push_cast; rw [abs_of_nonneg (by linarith)]; linarith)
    have even' := other.tie (by rw [abs_of_nonpos (by linarith)]; linarith)
    omega

end Cut

theorem Canonical.cut {m : Nat} {e : Int} (canonical : Canonical m e) : Cut (m * 2 ^ e) e m := by
  have unit : (2 : ℚ) ^ e ≠ 0 := by positivity
  have none : |(m : ℚ) - m * 2 ^ e / 2 ^ e| = 0 := by
    rw [mul_div_cancel_right₀ _ unit, sub_self, abs_zero]
  refine ⟨by positivity, canonical.least, ?_, ?_, ?_, ?_⟩
  · rw [none]
    norm_num
  · rw [none]
    norm_num
  · gcongr
    exact_mod_cast canonical.bits
  · refine canonical.full.imp ?_ id
    intro full
    gcongr
    exact_mod_cast full

theorem value_most {x : Float} (finite : x.isFinite = true) :
    |Scalar.value x| ≤ overflow - halfUnit := by
  obtain ⟨m, e, bits, _, most, size⟩ := value_size finite
  have largest : (2 : ℚ) ^ e ≤ 2 * halfUnit := by
    rw [← pow_one 2, ← two_zpow_add]
    exact zpow_le_zpow_right₀ one_le_two most
  have significand : (m : ℚ) ≤ 2 ^ 53 - 1 := by
    have whole : (m : ℚ) ≤ ((2 ^ 53 - 1 : ℕ) : ℚ) := Nat.cast_le.mpr (by omega)
    push_cast at whole
    linarith
  calc |Scalar.value x| = m * 2 ^ e := size
    _ ≤ (2 ^ 53 - 1) * (2 * halfUnit) :=
        mul_le_mul significand largest (by positivity) (by norm_num)
    _ = overflow - halfUnit := by
        unfold overflow
        ring

theorem value_below {x : Float} (finite : x.isFinite = true) : |Scalar.value x| < overflow := by
  have most := value_most finite
  have half := halfUnit_pos
  linarith

theorem rounded_value {x : Float} (finite : x.isFinite = true) : Rounded (Scalar.value x) x := by
  have below := abs_lt.mp (value_below finite)
  refine ⟨?_, ?_, ?_⟩
  · intro _
    refine ⟨finite, ?_⟩
    rcases finite_cases finite with ⟨s, zero⟩ | ⟨s, m, e, pos, unpacked, canonical, _⟩
    · have least : Canonical 0 (-1074) := ⟨by norm_num, le_refl _, .inr rfl⟩
      refine ⟨s, -1074, 0, by simp [value_zero zero], ?_, by simp [value_zero zero]⟩
      have cut := least.cut
      rw [Nat.cast_zero, zero_mul] at cut
      rwa [value_zero zero, abs_zero]
    · have size : |Scalar.value x| = m * 2 ^ e := by
        rw [value_finite unpacked, abs_unit_mul, abs_of_nonneg (by positivity)]
      rw [size]
      exact ⟨s, e, m, value_finite unpacked, canonical.cut, value_finite unpacked⟩
  · intro past
    exact absurd below.2 (not_lt.mpr past)
  · intro past
    exact absurd below.1 (not_lt.mpr past)

theorem roundWithAccuracy_rounded {s : Sign} {mantissa : Nat} {exponent : Int} {accuracy : Accuracy}
    {num den : Nat} (pos : 0 < den)
    (stands : StandsFor (.ofMantissaAndAccuracy mantissa accuracy) num den)
    (spare : exponent ≤ max (mantissa.log2 + exponent - 52) (-1074)) {x : Float}
    (packed : x.toModel.unpack =
      (Float.Model.pack (roundWithAccuracy .binary64 s mantissa exponent accuracy)).unpack) :
    Rounded (unit s * (num / den * 2 ^ exponent)) x := by
  have cut := cut_quotient mantissa exponent accuracy pos stands rfl spare
  exact cut.rounded (cut.outcome packed
    (roundWithAccuracy_cases s mantissa exponent accuracy pos stands rfl spare rfl cut.bits))

/-- Rounding of an exact number, whose significand is first made long enough. -/
theorem round_rounded {s : Sign} {mantissa : Nat} {exponent : Int} (filled : 0 < mantissa) {x : Float}
    (packed : x.toModel.unpack =
      (Float.Model.pack (UnpackedFloat.round .binary64 s mantissa exponent)).unpack) :
    Rounded (unit s * (mantissa * 2 ^ exponent)) x := by
  simp only [UnpackedFloat.round, target_eq, decreaseExponent, Nat.shiftLeft_eq] at packed
  generalize place : (exponent - max (mantissa.log2 + exponent - 52) (-1074)).toNat = shift at packed
  have log : (mantissa * 2 ^ shift).log2 = mantissa.log2 + shift := log2_mul_two_pow _ _ filled
  have rounded := roundWithAccuracy_rounded one_pos (standsFor_exact _)
    (by rw [log]; push_cast; omega) packed
  have same : (mantissa : ℚ) * 2 ^ exponent =
      ((mantissa * 2 ^ shift : Nat) : ℚ) / (1 : Nat) * 2 ^ (exponent - shift) := by
    rw [zpow_sub₀ two_ne_zero, zpow_natCast]
    push_cast
    field_simp
  rw [same]
  exact rounded

/-! ### What rounding respects -/

theorem value_float_zero : Scalar.value (0.0 : Float) = 0 :=
  value_zero (by rfl : (0.0 : Float).toModel.unpack = .zero .positive)

theorem finite_float_zero : (0.0 : Float).isFinite = true := by decide

namespace Rounded
variable {q : ℚ} {x : Float} (rounded : Rounded q x)
include rounded

theorem finite_iff : x.isFinite = true ↔ |q| < overflow := by
  constructor
  · intro finite
    by_contra past
    rw [isFinite_eq] at finite
    rcases le_abs.mp (not_lt.mp past) with large | small
    · rw [rounded.above large] at finite
      cases finite
    · rw [rounded.below (by linarith)] at finite
      cases finite
  · exact fun inside => (rounded.within inside).1

section Inside
variable (inside : |q| < overflow)
include inside

/-- No double is nearer. -/
theorem nearest {z : Float} (finite : z.isFinite = true) :
    |Scalar.value x - q| ≤ |Scalar.value z - q| := by
  obtain ⟨_, s, t, r, sign, cut, value⟩ := rounded.within inside
  obtain ⟨m, e, bits, least, _, size⟩ := value_size finite
  generalize |q| = p at sign cut
  have near := cut.nearest bits least ((abs_unit_mul s _).trans size)
  rw [value, sign, ← mul_sub, abs_unit_mul, ← unit_mul_self s (Scalar.value z), ← mul_sub,
    abs_unit_mul]
  exact near

/-- At most half of the largest unit is lost. -/
theorem close : |Scalar.value x - q| ≤ halfUnit := by
  obtain ⟨_, s, t, r, sign, cut, value⟩ := rounded.within inside
  have most := cut.inside_iff.mp inside
  generalize |q| = p at sign cut
  rw [value, sign, ← mul_sub, abs_unit_mul]
  exact cut.close (by omega)

/-- Nothing is lost of what 53 bits can hold. -/
theorem exact {m : ℕ} {e : ℤ} (bits : m < 2 ^ 53) (least : -1074 ≤ e) (size : |q| = m * 2 ^ e) :
    Scalar.value x = q := by
  obtain ⟨_, s, t, r, sign, cut, value⟩ := rounded.within inside
  have none := cut.nearest bits least ((abs_abs q).trans size)
  rw [sub_self, abs_zero, abs_nonpos_iff, sub_eq_zero] at none
  rw [value, none, ← sign]

/-- No double lies strictly between a number and what it is rounded to. -/
theorem le_of_le {z : Float} (finite : z.isFinite = true) (le : q ≤ Scalar.value z) :
    Scalar.value x ≤ Scalar.value z := by
  by_contra above
  have near := rounded.nearest inside finite
  rw [abs_of_pos (by linarith), abs_of_nonneg (by linarith)] at near
  linarith

theorem ge_of_ge {z : Float} (finite : z.isFinite = true) (ge : Scalar.value z ≤ q) :
    Scalar.value z ≤ Scalar.value x := by
  by_contra below
  have near := rounded.nearest inside finite
  rw [abs_of_neg (by linarith), abs_of_nonpos (by linarith)] at near
  linarith

theorem nonneg (positive : 0 ≤ q) : 0 ≤ Scalar.value x := by
  rw [← value_float_zero] at positive ⊢
  exact rounded.ge_of_ge inside finite_float_zero positive

theorem size : |Scalar.value x| ≤ 2 * |q| := by
  have near := rounded.nearest inside finite_float_zero
  rw [value_float_zero, zero_sub, abs_neg] at near
  have sum := abs_add_le (Scalar.value x - q) q
  rw [sub_add_cancel] at sum
  linarith

theorem nonpos (negative : q ≤ 0) : Scalar.value x ≤ 0 := by
  rw [← value_float_zero] at negative ⊢
  exact rounded.le_of_le inside finite_float_zero negative

theorem unique {y : Float} (other : Rounded q y) : Scalar.value x = Scalar.value y := by
  have sizes : |Scalar.value x| = |Scalar.value y| := by
    obtain ⟨_, s, t, r, _, cut, value⟩ := rounded.within inside
    obtain ⟨_, s', t', r', _, cut', value'⟩ := other.within inside
    rw [value, value', abs_unit_mul, abs_unit_mul, cut.unique cut']
  rcases le_total 0 q with positive | negative
  · rwa [abs_of_nonneg (rounded.nonneg inside positive),
      abs_of_nonneg (other.nonneg inside positive)] at sizes
  · rwa [abs_of_nonpos (rounded.nonpos inside negative),
      abs_of_nonpos (other.nonpos inside negative), neg_inj] at sizes

end Inside
end Rounded

theorem Rounded.mono {p q : ℚ} {x y : Float} (first : Rounded p x) (second : Rounded q y)
    (insideP : |p| < overflow) (insideQ : |q| < overflow) (le : p ≤ q) :
    Scalar.value x ≤ Scalar.value y := by
  rcases le.eq_or_lt with rfl | less
  · exact (first.unique insideP second).le
  · by_contra above
    -- `p` is at least as near to the larger of the two, `q` to the smaller
    have nearX := sq_le_sq.mpr (first.nearest insideP (second.finite_iff.mpr insideQ))
    have nearY := sq_le_sq.mpr (second.nearest insideQ (first.finite_iff.mpr insideP))
    nlinarith

end LadderChart
