import LadderChart.Proofs.Number.Arithmetic

/-!
The order of scalars, as far as the chart relies on it. Doubles are compared by rank: first by what
they are, from minus infinity to infinity, then by exponent and significand. What is not a number
has no rank; finite doubles are in the order of their values.
-/

namespace LadderChart

/-- Scalars are compared as numbers are; of any two that are numbers, one is not the larger. -/
class Scalar.Ordered (α : Type) [Scalar α] : Prop where
  le_of_lt {x y : α} : x < y → x ≤ y
  le_trans {x y z : α} : x ≤ y → y ≤ z → x ≤ z
  le_of_not_lt {x y : α} : isNaN x = false → isNaN y = false → ¬ y < x → x ≤ y
  number_of_finite {x : α} : isFinite x = true → isNaN x = false
  finite_ofNat {n : Nat} : n ≤ largestIndex → isFinite (ofNat n : α) = true
  ofNat_mono {m n : Nat} : m ≤ n → n ≤ largestIndex → (ofNat m : α) ≤ ofNat n

theorem Scalar.Ordered.le_refl {α : Type} [Scalar α] [Scalar.Ordered α] {x : α}
    (number : isNaN x = false) : x ≤ x := by
  by_cases less : x < x
  · exact le_of_lt less
  · exact le_of_not_lt number number less

instance : Scalar.Ordered Rat where
  le_of_lt := Rat.le_of_lt
  le_trans := Rat.le_trans
  le_of_not_lt _ _ := Rat.not_lt.mp
  number_of_finite _ := by simp [Scalar.isNaN]
  finite_ofNat _ := rfl
  ofNat_mono le _ := Rat.natCast_le_natCast.mpr le

open Float.Model Float.Model.UnpackedFloat

abbrev Rank : Type := Int ×ₗ Int ×ₗ Int

def Rank.of (kind exponent significand : Int) : Rank := toLex (kind, toLex (exponent, significand))

def rank? : UnpackedFloat → Option Rank
  | .notANumber => none
  | .infinity .negative => some (.of (-2) 0 0)
  | .finite .negative m e _ => some (.of (-1) (-e) (-m))
  | .zero _ => some (.of 0 0 0)
  | .finite .positive m e _ => some (.of 1 e m)
  | .infinity .positive => some (.of 2 0 0)

theorem Rank.of_le (k e m k' e' m' : Int) : Rank.of k e m ≤ Rank.of k' e' m' ↔
    k < k' ∨ k = k' ∧ (e < e' ∨ e = e' ∧ m ≤ m') := by
  simp only [Rank.of, Prod.Lex.toLex_le_toLex]

theorem Rank.of_lt (k e m k' e' m' : Int) : Rank.of k e m < Rank.of k' e' m' ↔
    k < k' ∨ k = k' ∧ (e < e' ∨ e = e' ∧ m < m') := by
  simp only [Rank.of, Prod.Lex.toLex_lt_toLex]

section Lexicographic
variable (e f : Int) (m n : Nat)

theorem lex_isLE : ((compare e f).then (compare m n)).isLE = true ↔ e < f ∨ e = f ∧ m ≤ n := by
  rw [Ordering.isLE_then_iff_or, Int.compare_eq_lt, Int.compare_eq_eq, Nat.isLE_compare]

theorem lex_isGE : ((compare e f).then (compare m n)).isGE = true ↔ f < e ∨ e = f ∧ n ≤ m := by
  rw [@eq_comm _ e f, ← lex_isLE, ← Ordering.isLE_swap, Ordering.swap_then, Int.compare_swap,
    Nat.compare_swap]

theorem lex_eq_lt : (compare e f).then (compare m n) = .lt ↔ e < f ∨ e = f ∧ m < n := by
  rw [Ordering.then_eq_lt, Int.compare_eq_lt, Int.compare_eq_eq, Nat.compare_eq_lt]

theorem lex_eq_gt : (compare e f).then (compare m n) = .gt ↔ f < e ∨ e = f ∧ n < m := by
  rw [Ordering.then_eq_gt, Int.compare_eq_gt, Int.compare_eq_eq, Nat.compare_eq_gt]

end Lexicographic

theorem unpacked_le_iff (a b : UnpackedFloat) :
    a.le b = true ↔ ∃ x y, rank? a = some x ∧ rank? b = some y ∧ x ≤ y := by
  -- kinds alone decide, except between two finite numbers of one sign
  rcases a with s | _ | s | ⟨s, m, e, pos⟩ <;> rcases b with t | _ | t | ⟨t, n, f, filled⟩ <;>
    (try cases s) <;> (try cases t) <;>
    simp [UnpackedFloat.le, UnpackedFloat.compare, rank?, Rank.of_le, lex_isLE, lex_isGE] <;>
    decide

theorem unpacked_lt_iff (a b : UnpackedFloat) :
    a.lt b = true ↔ ∃ x y, rank? a = some x ∧ rank? b = some y ∧ x < y := by
  rcases a with s | _ | s | ⟨s, m, e, pos⟩ <;> rcases b with t | _ | t | ⟨t, n, f, filled⟩ <;>
    (try cases s) <;> (try cases t) <;>
    simp [UnpackedFloat.lt, UnpackedFloat.compare, rank?, Rank.of_lt, lex_eq_lt, lex_eq_gt]
  decide

theorem float_le_iff (x y : Float) : x ≤ y ↔ ∃ r s,
    rank? x.toModel.unpack = some r ∧ rank? y.toModel.unpack = some s ∧ r ≤ s := by
  change decide (x.toModel ≤ y.toModel) = true ↔ _
  rw [decide_eq_true_iff]
  exact unpacked_le_iff _ _

theorem float_lt_iff (x y : Float) : x < y ↔ ∃ r s,
    rank? x.toModel.unpack = some r ∧ rank? y.toModel.unpack = some s ∧ r < s := by
  change decide (x.toModel < y.toModel) = true ↔ _
  rw [decide_eq_true_iff]
  exact unpacked_lt_iff _ _

theorem unpacked_beq_iff (a b : UnpackedFloat) :
    a.beq b = true ↔ ∃ r, rank? a = some r ∧ rank? b = some r := by
  rcases a with s | _ | s | ⟨s, m, e, pos⟩ <;> rcases b with t | _ | t | ⟨t, n, f, filled⟩ <;>
    (try cases s) <;> (try cases t) <;>
    simp [UnpackedFloat.beq, UnpackedFloat.compare, rank?, Rank.of, Ordering.then_eq_eq] <;>
    first | decide | omega

theorem float_beq_iff (x y : Float) :
    (x == y) = true ↔ ∃ r, rank? x.toModel.unpack = some r ∧ rank? y.toModel.unpack = some r :=
  unpacked_beq_iff _ _

theorem rank_of_finite (a : UnpackedFloat) (finite : a.isFinite = true) :
    (rank? a).isSome = true := by
  rcases a with s | _ | s | ⟨s, m, e, pos⟩
  · cases finite
  · cases finite
  · rfl
  · cases s <;> rfl

/-- Doubles that are numbers are those with a rank. -/
theorem float_number_iff (x : Float) :
    Scalar.isNaN x = false ↔ ∃ r, rank? x.toModel.unpack = some r := by
  rw [Scalar.isNaN, Bool.not_eq_false', float_beq_iff]
  simp only [and_self]

/-! ### Finite doubles -/

theorem canonical_le_iff {m m' : Nat} {e e' : Int} (canonical : Canonical m e)
    (canonical' : Canonical m' e') :
    (m : ℚ) * 2 ^ e ≤ m' * 2 ^ e' ↔ e < e' ∨ e = e' ∧ m ≤ m' := by
  rcases lt_trichotomy e e' with less | rfl | more
  · exact iff_of_true (canonical.cut.lt_of_unit canonical'.cut less).le (.inl less)
  · rw [mul_le_mul_iff_left₀ (by positivity), Nat.cast_le]
    omega
  · exact iff_of_false (not_le.mpr (canonical'.cut.lt_of_unit canonical.cut more)) (by omega)

theorem float_le_iff_value {x y : Float} (finiteX : x.isFinite = true) (finiteY : y.isFinite = true) :
    x ≤ y ↔ Scalar.value x ≤ Scalar.value y := by
  rw [float_le_iff]
  rcases finite_cases finiteX with ⟨s, zeroX⟩ | ⟨s, m, e, pos, unpackedX, canonicalX, _⟩
  · rcases finite_cases finiteY with ⟨s', zeroY⟩ | ⟨s', m', e', pos', unpackedY, _⟩
    · simp [zeroX, zeroY, value_zero, rank?]
    · have size : (0 : ℚ) < m' * 2 ^ e' := by positivity
      rw [zeroX, unpackedY, value_zero zeroX, value_finite unpackedY]
      cases s' <;> simp [rank?, Rank.of_le, unit] <;> linarith
  · have size : (0 : ℚ) < m * 2 ^ e := by positivity
    rcases finite_cases finiteY with ⟨s', zeroY⟩ | ⟨s', m', e', pos', unpackedY, canonicalY, _⟩
    · rw [unpackedX, zeroY, value_zero zeroY, value_finite unpackedX]
      cases s <;> simp [rank?, Rank.of_le, unit] <;> linarith
    · have size' : (0 : ℚ) < m' * 2 ^ e' := by positivity
      have up := canonical_le_iff canonicalX canonicalY
      have down := canonical_le_iff canonicalY canonicalX
      rw [unpackedX, unpackedY, value_finite unpackedX, value_finite unpackedY]
      cases s <;> cases s' <;> simp [rank?, Rank.of_le, unit]
      · rw [down]
        omega
      · linarith
      · linarith
      · rw [up]

theorem float_lt_iff_value {x y : Float} (finiteX : x.isFinite = true) (finiteY : y.isFinite = true) :
    x < y ↔ Scalar.value x < Scalar.value y := by
  obtain ⟨r, rankX⟩ := Option.isSome_iff_exists.mp (rank_of_finite _ finiteX)
  obtain ⟨s, rankY⟩ := Option.isSome_iff_exists.mp (rank_of_finite _ finiteY)
  rw [← not_le, ← float_le_iff_value finiteY finiteX, float_le_iff, float_lt_iff]
  simp [rankX, rankY]

theorem float_beq_iff_value {x y : Float} (finiteX : x.isFinite = true)
    (finiteY : y.isFinite = true) : (x == y) = true ↔ Scalar.value x = Scalar.value y := by
  obtain ⟨r, rankX⟩ := Option.isSome_iff_exists.mp (rank_of_finite _ finiteX)
  obtain ⟨s, rankY⟩ := Option.isSome_iff_exists.mp (rank_of_finite _ finiteY)
  have both : Scalar.value x = Scalar.value y ↔ x ≤ y ∧ y ≤ x := by
    rw [float_le_iff_value finiteX finiteY, float_le_iff_value finiteY finiteX, le_antisymm_iff]
  rw [both, float_beq_iff, float_le_iff, float_le_iff]
  simp [rankX, rankY, ← le_antisymm_iff, eq_comm]

theorem float_beq_self {x : Float} (finite : x.isFinite = true) : (x == x) = true :=
  (float_beq_iff_value finite finite).mpr rfl

theorem word_inside {n : Nat} (word : n ≤ Scalar.largestIndex) : |(n : ℚ)| < overflow := by
  have below : (n : ℚ) ≤ ((2 ^ 64 - 1 : ℕ) : ℚ) := Nat.cast_le.mpr word
  have half : 2 ^ 11 ≤ halfUnit := pow_le_pow_right₀ one_le_two (by norm_num)
  rw [Nat.abs_cast, overflow]
  push_cast at below
  nlinarith

theorem float_ofNat_finite (n : Nat) (word : n ≤ Scalar.largestIndex) :
    (Float.ofNat n).isFinite = true :=
  (ofNat_rounded n).finite_iff.mpr (word_inside word)

theorem float_ofNat_mono (m n : Nat) (le : m ≤ n) (word : n ≤ Scalar.largestIndex) :
    Float.ofNat m ≤ Float.ofNat n := by
  rw [float_le_iff_value (float_ofNat_finite m (le.trans word)) (float_ofNat_finite n word)]
  exact (ofNat_rounded m).mono (ofNat_rounded n) (word_inside (le.trans word)) (word_inside word)
    (Nat.cast_le.mpr le)

instance : Scalar.Ordered Float where
  le_of_lt {x y} lt := by
    obtain ⟨r, s, rankX, rankY, less⟩ := (float_lt_iff x y).mp lt
    exact (float_le_iff x y).mpr ⟨r, s, rankX, rankY, less.le⟩
  le_trans {x y z} first second := by
    obtain ⟨r, s, rankX, rankY, below⟩ := (float_le_iff x y).mp first
    obtain ⟨s', t, rankY', rankZ, above⟩ := (float_le_iff y z).mp second
    -- the number in the middle has one rank
    have same : s = s' := Option.some.inj (rankY.symm.trans rankY')
    subst same
    exact (float_le_iff x z).mpr ⟨r, t, rankX, rankZ, below.trans above⟩
  le_of_not_lt {x y} numberX numberY notLess := by
    obtain ⟨r, rankX⟩ := (float_number_iff x).mp numberX
    obtain ⟨s, rankY⟩ := (float_number_iff y).mp numberY
    refine (float_le_iff x y).mpr ⟨r, s, rankX, rankY, ?_⟩
    by_contra above
    exact notLess ((float_lt_iff y x).mpr ⟨s, r, rankY, rankX, not_le.mp above⟩)
  number_of_finite {x} finite :=
    (float_number_iff x).mpr (Option.isSome_iff_exists.mp (rank_of_finite _ finite))
  finite_ofNat {n} word := float_ofNat_finite n word
  ofNat_mono {m n} le word := float_ofNat_mono m n le word

end LadderChart
